/-!
# Glyphs of patterns

In the text of a pattern some characters have a meaning, and a backslash in front takes it away. A
glyph is a character of which this is decided.

## Main definitions

* `Glyph`: a character of a pattern
* `glyphs`: characters with the backslashes resolved
-/

namespace Earley.Pattern

/-- **A character of a pattern**, after the backslashes are resolved. -/
inductive Glyph where
  /-- A character as it stands; some have a meaning. -/
  | plain (c : Char)
  /-- A character that stands for itself. -/
  | shielded (c : Char)
deriving DecidableEq

namespace Glyph

/-- The character that a glyph shows. -/
def char : Glyph → Char
  | plain c => c
  | shielded c => c

/-- What a backslash in front of a character stands for. -/
def unescape (c : Char) : Option Char :=
  match c with
  | 'n' => some '\n'
  | 't' => some '\t'
  | 'r' => some '\r'
  | _ => if c.toNat < 128 ∧ !c.isAlphanum ∧ c ≠ '<' ∧ c ≠ '>' then some c else none

end Glyph

/-- The glyphs of a text. A backslash needs a character behind it. -/
def glyphs : List Char → Option (List Glyph)
  | [] => some []
  | '\\' :: [] => none
  | '\\' :: c :: rest => do
    let c ← Glyph.unescape c
    return .shielded c :: (← glyphs rest)
  | c :: rest => do return .plain c :: (← glyphs rest)

end Earley.Pattern
