import Earley.Token.Basic

/-!
# Lexers

A lexer reads a chunk of input into tokens. It begins at a mark, which says where the chunk
continues earlier input, and behind every token it gives the mark from which input could go on.

## Main definitions

* `LexError`: why a chunk cannot be read on
* `Reading`: the tokens of a chunk, with the marks behind them
* `markBehind`: the mark behind some tokens
* `Lexer`: how to read chunks
-/

namespace Earley

/-- **Why a chunk cannot be read on.** -/
structure LexError where
  message : String
  /-- The offending input, if the lexer can point at it. -/
  token : Option Token := none
deriving DecidableEq, Repr

/-- **What comes of reading a chunk.** -/
structure Reading (Mark : Type) where
  /-- The tokens in order, each with the mark behind it. -/
  tokens : List (Token × Mark)
  /-- The mark where reading ended. -/
  stand : Mark
  /-- Why reading ended before the end of the chunk, if it did. -/
  error : Option LexError := none
deriving DecidableEq, Repr

/-- **The mark behind some tokens** that were read from a mark on. -/
def markBehind {Mark : Type} (start : Mark) (tokens : List (Token × Mark)) : Mark :=
  tokens.foldl (fun _ token => token.2) start

@[simp] theorem markBehind_nil {Mark : Type} (start : Mark) : markBehind start [] = start := rfl

@[simp] theorem markBehind_cons {Mark : Type} (start : Mark) (token : Token × Mark)
    (rest : List (Token × Mark)) : markBehind start (token :: rest) = markBehind token.2 rest := rfl

/-- **A lexer** for chunks of one type, with marks of another. -/
structure Lexer (Chunk Mark : Type) where
  /-- The mark at the beginning of all input. -/
  origin : Mark
  /-- Reads a chunk from a mark. -/
  read : Mark → Chunk → Reading Mark
  /-- Says where a token stands under a headline: the chunk, the mark where it began and the mark
  that reading has reached are known. -/
  locate : Chunk → (start stand : Mark) → Token → (headline : String) → String

end Earley
