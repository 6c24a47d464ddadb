import Earley.Reducer.Basic
import Earley.Text.Decimal

/-!
# Reducers that calculate

Numbers are whole and have 64 bits. A derivation whose result does not fit, at any step, is refused.

## Main definitions

* `Reducer.exactly?`: a number, if it fits
* `Reducer.operand?`: the number that a value stands for
* `Reducer.number`: the number of a row of digits
* `Reducer.binary`: an operator between two numbers
-/

namespace Earley.Reducer

/-- A whole number in 64 bits, if it fits. -/
def exactly? (n : Int) : Option Int64 :=
  if Int64.minValue.toInt ≤ n ∧ n ≤ Int64.maxValue.toInt then some (Int64.ofInt n) else none

/-- The number that a value stands for: a number itself, or a text that is one. -/
def operand? : Value → Option Int64
  | .int n => some n
  | v => v.asText?.bind Text.integer? |>.bind exactly?

/-- Appends digits to a number. The number fits after every multiplication and every addition. -/
def appendDigits : Int64 → List Value → Option Int64
  | n, [] => some n
  | n, digit :: rest => do
    let shifted ← exactly? (n.toInt * 10)
    let digit ← operand? digit
    let next ← exactly? (shifted.toInt + digit.toInt)
    appendDigits next rest

/-- The number that a row of digits stands for. -/
def number : Reducer := fun children _ =>
  (appendDigits 0 children).map .int

/-- The result of an operator. A quotient is cut off toward zero. -/
def operate (operator : String) (a b : Int64) : Option Int64 :=
  match operator with
  | "+" => exactly? (a.toInt + b.toInt)
  | "-" => exactly? (a.toInt - b.toInt)
  | "*" => exactly? (a.toInt * b.toInt)
  | "/" => if b = 0 then none else exactly? (a.toInt.tdiv b.toInt)
  | _ => none

/-- The result of the operator between the first and the third child. -/
def binary : Reducer := fun children _ =>
  match children with
  | left :: operator :: right :: _ => do
    let a ← operand? left
    let b ← operand? right
    let operator ← operator.asText?
    return .int (← operate operator a b)
  | _ => none

end Earley.Reducer
