import Earley.Value.Basic

/-!
# Reducers

A reducer makes the value of a rule from the values of its children and the column in which the
derivation began. It may also refuse, and then the derivation does not count.

## Main definitions

* `Reducer`: the type of reducers
* `Reducer.pack`: the reducer of a rule that names none
* `Reducer.first`, `Reducer.nth`, `Reducer.null`, `Reducer.join`: choosing from and joining children
* `Reducer.prepend`, `Reducer.append`: building lists one item at a time
-/

namespace Earley

/-- **A reducer**: from the values of the children and the column where the derivation begins to a
value, or to none if the derivation is refused. -/
abbrev Reducer := List Value → Nat → Option Value

namespace Reducer

/-- The list of the children. -/
def pack : Reducer := fun children _ =>
  some (.list children)

/-- The child at a place counted from zero, null if there is none. -/
def nth (n : Nat) : Reducer := fun children _ =>
  some (children[n]?.getD .null)

/-- The first child, null if there is none. -/
def first : Reducer :=
  nth 0

/-- Null. -/
def null : Reducer := fun _ _ =>
  some .null

/-- The source text of all children. -/
def join : Reducer := fun children _ =>
  some (.string (Value.renderedAll children))

/-- The first child, then the items of the second. A second child that is no list counts as the one
item. -/
def prepend : Reducer := fun children _ =>
  match children with
  | [] => some (.list [])
  | [a] => some (.list [a])
  | a :: .list items :: _ => some (.list (a :: items))
  | a :: b :: _ => some (.list [a, b])

/-- The items of the first child, then the second. A first child that is no list counts as the one
item. -/
def append : Reducer := fun children _ =>
  match children with
  | [] => some (.list [])
  | .list items :: rest => some (.list (items ++ rest.take 1))
  | a :: rest => some (.list (a :: rest.take 1))

/-- The column in which the derivation begins. -/
def origin : Reducer := fun _ origin =>
  some (.int (Int64.ofNat origin))

/-- The number of children. -/
def count : Reducer := fun children _ =>
  some (.int (Int64.ofNat children.length))

/-- The column in which the derivation begins and the source text of the children. -/
def span : Reducer := fun children origin =>
  some (.list [.int (Int64.ofNat origin), .string (Value.renderedAll children)])

/-- The list of the children under a name. -/
def tag (name : String) : Reducer := fun children _ =>
  some (.list (.string name :: children))

/-- A fixed value. -/
def const (v : Value) : Reducer := fun _ _ =>
  some v

end Reducer

end Earley
