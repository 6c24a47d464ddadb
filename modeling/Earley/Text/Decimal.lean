/-!
# Decimal numbers

Reading a whole number that is written in decimal digits: at most one sign, then one or more of the
digits `0` to `9`, and nothing else.

## Main definitions

* `natural?`: the number that a text of digits stands for
* `integer?`: the same with a sign in front
-/

namespace Earley.Text

/-- The number that one or more digits stand for. -/
def natural? (cs : List Char) : Option Nat :=
  if cs ≠ [] ∧ cs.all Char.isDigit then
    some (cs.foldl (fun n c => 10 * n + (c.toNat - '0'.toNat)) 0)
  else
    none

/-- **The whole number that a text stands for.** -/
def integer? (s : String) : Option Int :=
  match s.toList with
  | '+' :: digits => (natural? digits).map Int.ofNat
  | '-' :: digits => (natural? digits).map fun n => -Int.ofNat n
  | digits => (natural? digits).map Int.ofNat

end Earley.Text
