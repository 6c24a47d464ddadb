import Earley.Lexer.Basic
import Earley.Lexer.Excerpt

/-!
# Lexers of plain text

A lexer of plain text goes over the characters of a chunk with a cursor and takes one token at a
time. Every token takes at least one character, so a chunk has finitely many.

## Main definitions

* `Cursor`: the text still to be read and the position reached
* `TextLexer`: how to take one token
* `TextLexer.drain`: all tokens from a cursor on
* `TextLexer.toLexer`: the lexer for chunks of text, which locates tokens by an excerpt

## Main results

* `TextLexer.drain_of_nothing`, `TextLexer.drain_of_failure`, `TextLexer.drain_of_token`: draining
  goes token by token
-/

namespace Earley

/-- **A cursor in a text**: what is still to be read, and where that begins. -/
structure Cursor where
  rest : List Char
  position : Position
deriving DecidableEq, Repr

/-- The cursor at the beginning of a chunk. -/
def Cursor.at (position : Position) (chunk : String) : Cursor :=
  { rest := chunk.toList, position }

/-- **What taking a token comes to**, with the cursor afterwards. -/
inductive Taken where
  /-- There is no further token. -/
  | nothing (cursor : Cursor)
  | token (t : Token) (cursor : Cursor)
  | failure (e : LexError) (cursor : Cursor)
deriving DecidableEq, Repr

/-- The cursor afterwards. -/
def Taken.cursor : Taken → Cursor
  | nothing cursor => cursor
  | token _ cursor => cursor
  | failure _ cursor => cursor

/-- **A lexer of plain text.** -/
structure TextLexer where
  /-- Takes the next token. -/
  next : Cursor → Taken
  /-- A token takes at least one character. -/
  next_lt : ∀ {c t c'}, next c = .token t c' → c'.rest.length < c.rest.length

namespace TextLexer

/-- **All tokens from a cursor on**, up to the end or the first error. -/
def drain (lexer : TextLexer) (cursor : Cursor) : Reading Position :=
  match h : lexer.next cursor with
  | .nothing cursor => { tokens := [], stand := cursor.position }
  | .failure e cursor => { tokens := [], stand := cursor.position, error := some e }
  | .token t cursor =>
    have := lexer.next_lt h
    let later := drain lexer cursor
    { later with tokens := (t, cursor.position) :: later.tokens }
termination_by cursor.rest.length

section Equations

variable {lexer : TextLexer} {c c' : Cursor}

theorem drain_of_nothing (h : lexer.next c = .nothing c') :
    lexer.drain c = { tokens := [], stand := c'.position } := by
  rw [drain]
  split <;> simp_all

theorem drain_of_failure {e : LexError} (h : lexer.next c = .failure e c') :
    lexer.drain c = { tokens := [], stand := c'.position, error := some e } := by
  rw [drain]
  split <;> simp_all

theorem drain_of_token {t : Token} (h : lexer.next c = .token t c') :
    lexer.drain c =
      { lexer.drain c' with tokens := (t, c'.position) :: (lexer.drain c').tokens } := by
  rw [drain]
  split <;> simp_all

/-- What comes of a cursor depends on the token that is taken there. -/
theorem drain_congr (h : lexer.next c = lexer.next c') : lexer.drain c = lexer.drain c' := by
  cases htaken : lexer.next c' with
  | nothing cursor => rw [drain_of_nothing htaken, drain_of_nothing (h.trans htaken)]
  | token t cursor => rw [drain_of_token htaken, drain_of_token (h.trans htaken)]
  | failure e cursor => rw [drain_of_failure htaken, drain_of_failure (h.trans htaken)]

end Equations

/-- **The lexer for chunks of text.** -/
def toLexer (lexer : TextLexer) : Lexer String Position where
  origin := {}
  read start chunk := lexer.drain (.at start chunk)
  locate chunk start _ t headline := (Excerpt.around chunk.toList start t).render headline

end TextLexer

end Earley
