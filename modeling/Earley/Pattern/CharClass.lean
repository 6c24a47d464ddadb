import Earley.Pattern.CharSet
import Earley.Pattern.Glyph

/-!
# Character classes

A class lists characters between brackets, one by one or as spans such as `a-z`. The operators `&&`,
`--` and `~~` make the intersection, the difference and the symmetric difference of what stands on
their two sides, from left to right. A class that begins with `^` holds the characters that are not
listed.

## Main definitions

* `Operands`: what stands between the operators of a class
* `CharClass.read`: a class from behind its opening bracket on
-/

namespace Earley.Pattern

/-- **The operands of a class**: the spans of the first one, and behind each operator those of the
next. -/
structure Operands where
  first : List (Nat × Nat) := []
  others : List (SetOperator × List (Nat × Nat)) := []

namespace Operands

/-- Adds a span in front. -/
def addSpan (operands : Operands) (first last : Char) : Operands :=
  { operands with first := (first.toNat, last.toNat) :: operands.first }

/-- Adds an operator in front, with nothing before it. -/
def addOperator (operands : Operands) (op : SetOperator) : Operands :=
  { others := (op, operands.first) :: operands.others }

/-- The set that operands stand for: operators are applied from left to right. -/
def set (operands : Operands) : CharSet :=
  operands.others.foldl (fun set (op, spans) => .combined op set (.spans false spans))
    (.spans false operands.first)

end Operands

namespace CharClass

/-- The operands of a class up to its closing bracket, and the glyphs behind that. A dash makes a
span, unless the bracket or a second dash follows it. A class does not hold another one. -/
def operands : List Glyph → Option (Operands × List Glyph)
  | [] => none
  | .plain ']' :: rest => some ({}, rest)
  | .plain '[' :: _ => none
  | .plain '&' :: .plain '&' :: rest =>
    (operands rest).map fun (those, rest) =>
      (those.addOperator .intersection, rest)
  | .plain '-' :: .plain '-' :: rest =>
    (operands rest).map fun (those, rest) =>
      (those.addOperator .difference, rest)
  | .plain '~' :: .plain '~' :: rest =>
    (operands rest).map fun (those, rest) =>
      (those.addOperator .symmetricDifference, rest)
  | first :: .plain '-' :: last :: rest =>
    if last = .plain ']' ∨ last = .plain '-' then
      (operands (.plain '-' :: last :: rest)).map fun (those, rest) =>
        (those.addSpan first.char first.char, rest)
    else if first.char ≤ last.char then
      (operands rest).map fun (those, rest) =>
        (those.addSpan first.char last.char, rest)
    else
      none
  | member :: rest =>
    (operands rest).map fun (those, rest) =>
      (those.addSpan member.char member.char, rest)

/-- What a class lists. At its start, dashes are members, and so is a closing bracket. -/
def listed (gs : List Glyph) : Option (CharSet × List Glyph) :=
  let dashes := gs.takeWhile (· == .plain '-')
  match dashes, gs.drop dashes.length with
  | [], .plain ']' :: rest =>
    (operands rest).map fun (those, rest) => ((those.addSpan ']' ']').set, rest)
  | dashes, rest =>
    (operands rest).map fun (those, rest) =>
      ((dashes.foldl (fun those _ => those.addSpan '-' '-') those).set, rest)

/-- **A class from behind its opening bracket on**, and the glyphs behind it. -/
def read : List Glyph → Option (CharSet × List Glyph)
  | .plain '^' :: rest => (listed rest).map fun (set, rest) => (.outside set, rest)
  | rest => listed rest

end CharClass

end Earley.Pattern
