import Earley.Lexer.Basic

/-!
# Prepared tokens

Input that another program has already cut into tokens. A chunk is a list of tokens and errors, and
a mark counts the items read so far.

## Main definitions

* `prepared`: the lexer
-/

namespace Earley

/-- One item of a prepared chunk: a token, or the report that reading failed. -/
abbrev PreparedItem := Except LexError Token

namespace Prepared

/-- Reads items up to the end or the first error, `count` of them having been read before. -/
def read (count : Nat) : List PreparedItem → Reading Nat
  | [] => { tokens := [], stand := count }
  | .error e :: _ => { tokens := [], stand := count + 1, error := some e }
  | .ok t :: rest =>
    let later := read (count + 1) rest
    { later with tokens := (t, count + 1) :: later.tokens }

end Prepared

/-- **The lexer for prepared tokens**, which locates a token by the number of items read. -/
def prepared : Lexer (List PreparedItem) Nat where
  origin := 0
  read := Prepared.read
  locate _ _ stand t headline :=
    headline ++ " near item " ++ toString stand ++ ": " ++ t.literal

end Earley
