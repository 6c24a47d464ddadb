import Earley.Lexer.Lexeme
import Earley.Lexer.Text

/-!
# Words as tokens

The lexer that makes every lexeme a token and leaves out the blanks between them. Offsets count
bytes, columns count characters. The value of a quotation is its content; its source text is kept
beside it. A quotation that cannot be read is reported with everything from its start on.

## Main definitions

* `words`: the lexer
-/

namespace Earley

namespace Words

/-- Offsets count bytes, columns count characters. -/
def ruler : Ruler where
  width c := c.utf8Size
  nextCol n := n + 1

/-- A token at a position. -/
def tokenAt (p : Position) (kind : Lexeme.Kind) (value : List Char) (text : Option (List Char)) :
    Token :=
  { value := String.ofList value
    text := text.map String.ofList
    kind := some kind.name
    offset := p.offset
    line := p.line
    col := ruler.nextCol p.col }

/-- The token of a lexeme at a position. -/
def lexemeToken (p : Position) (l : Lexeme) : Token :=
  match l.content with
  | some content => tokenAt p l.kind content (some l.text)
  | none => tokenAt p l.kind l.text none

/-- The report of a quotation that cannot be read, with the text from its start on. -/
def faultError (p : Position) (fault : Quotation.Fault) (rest : List Char) : LexError :=
  { message := fault.message, token := some (tokenAt p .quote rest none) }

/-- The cursor behind the blanks. -/
def skipBlanks (cursor : Cursor) : Cursor :=
  { rest := cursor.rest.dropWhile Text.isBlank
    position := cursor.position.behind ruler (cursor.rest.takeWhile Text.isBlank) }

/-- The lexeme behind the blanks. -/
def next (cursor : Cursor) : Taken :=
  let start := skipBlanks cursor
  match start.rest with
  | [] => .nothing start
  | c :: rest =>
    match Lexeme.read c rest with
    | .error fault => .failure (faultError start.position fault (c :: rest)) start
    | .ok (l, behind) =>
      .token (lexemeToken start.position l)
        { rest := behind, position := start.position.behind ruler l.text }

theorem length_skipBlanks_le (cursor : Cursor) :
    (skipBlanks cursor).rest.length ≤ cursor.rest.length :=
  (List.dropWhile_sublist _).length_le

theorem next_lt {c c' : Cursor} {t : Token} (h : next c = .token t c') :
    c'.rest.length < c.rest.length := by
  have hle := length_skipBlanks_le c
  simp only [next] at h
  split at h
  · simp at h
  · next hrest =>
    split at h
    · simp at h
    · next hread =>
      obtain ⟨-, rfl⟩ := Taken.token.inj h
      have := Lexeme.length_lt_of_read hread
      rw [hrest] at hle
      exact Nat.lt_of_lt_of_le this hle

end Words

/-- **The lexer that makes every word a token.** -/
def words : TextLexer where
  next := Words.next
  next_lt := Words.next_lt

end Earley
