/-!
# Tokens

A token is a stretch of source text that the grammar treats as one unit. Its value is what patterns
search; its source text is kept beside it where the two differ, as for a quotation.

## Main definitions

* `Token`: a token and its place
* `Token.literal`: the source text
* `Token.rendered`: the source text of several tokens
-/

namespace Earley

/-- **A token.** -/
structure Token where
  /-- What patterns search. -/
  value : String
  /-- The source text, where it differs from `value`. -/
  text : Option String := none
  /-- The kind of token. -/
  kind : Option String := none
  /-- How far the token stands from the beginning of the input. -/
  offset : Nat := 0
  /-- The line it begins on, counted from one. -/
  line : Nat := 1
  /-- Its first character's place on that line, counted from one. -/
  col : Nat := 1
deriving DecidableEq, Repr, Inhabited

namespace Token

/-- **The source text** of a token. -/
def literal (t : Token) : String :=
  t.text.getD t.value

/-- The source text of several tokens, put together. -/
def rendered (ts : List Token) : String :=
  String.join (ts.map literal)

end Token

end Earley
