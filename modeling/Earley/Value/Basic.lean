import Earley.Token.Basic

/-!
# Values

Every derivation carries a value. A token is its own value, a rule makes a value from those of its
children, and by default that is the list of them. Everything else is for reducers to build.

## Main definitions

* `Value`: the values
* `Value.same`: equality as a computation
* `Value.rendered`: the source text that a value came from
* `Value.leaves`: the tokens inside a value

## Main results

* `Value.same_iff`: values are the same exactly when they are equal
-/

namespace Earley

/-- **Values of derivations.** -/
inductive Value where
  | null
  | bool (b : Bool)
  | int (n : Int64)
  | string (s : String)
  | token (t : Token)
  | list (items : List Value)
deriving Repr, Inhabited

namespace Value

/-! ## Equality -/

mutual

/-- Equality of values as a computation. -/
def same : Value → Value → Bool
  | null, null => true
  | bool a, bool b => a == b
  | int m, int n => m == n
  | string s, string t => s == t
  | token s, token t => decide (s = t)
  | list xs, list ys => sameItems xs ys
  | _, _ => false

/-- Equality of lists of values, item by item. -/
def sameItems : List Value → List Value → Bool
  | [], [] => true
  | x :: xs, y :: ys => same x y && sameItems xs ys
  | _, _ => false

end

mutual

/-- Values are the same exactly when they are equal. -/
theorem same_iff (a b : Value) : same a b = true ↔ a = b := by
  cases a <;> cases b <;> simp [same]
  exact sameItems_iff _ _

/-- Lists of values are the same exactly when they are equal. -/
theorem sameItems_iff (xs ys : List Value) : sameItems xs ys = true ↔ xs = ys := by
  match xs, ys with
  | [], [] => simp [sameItems]
  | [], _ :: _ => simp [sameItems]
  | _ :: _, [] => simp [sameItems]
  | x :: xs, y :: ys => simp [sameItems, same_iff x y, sameItems_iff xs ys]

end

instance : DecidableEq Value := fun a b => decidable_of_iff _ (same_iff a b)

/-! ## Views -/

/-- The items of a list. -/
def asList? : Value → Option (List Value)
  | list items => some items
  | _ => none

/-- The token of a token value. -/
def asToken? : Value → Option Token
  | token t => some t
  | _ => none

/-- The number of a number value. -/
def asInt? : Value → Option Int64
  | int n => some n
  | _ => none

/-- The text of a string, or the value of a token. -/
def asText? : Value → Option String
  | string s => some s
  | token t => some t.value
  | _ => none

/-! ## The source text of a value -/

mutual

/-- **The source text that a value came from.** Nothing comes from nothing, and lists add no text of
their own. -/
def rendered : Value → String
  | null => ""
  | bool b => if b then "true" else "false"
  | int n => toString n.toInt
  | string s => s
  | token t => t.literal
  | list items => renderedAll items

/-- The source texts of several values, put together. -/
def renderedAll : List Value → String
  | [] => ""
  | v :: rest => rendered v ++ renderedAll rest

end

mutual

/-- The tokens inside a value, from left to right. -/
def leaves : Value → List Token
  | token t => [t]
  | list items => leavesAll items
  | _ => []

/-- The tokens inside several values. -/
def leavesAll : List Value → List Token
  | [] => []
  | v :: rest => leaves v ++ leavesAll rest

end

end Value

end Earley
