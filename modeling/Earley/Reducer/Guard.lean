import Earley.Reducer.Basic

/-!
# Reducers that refuse derivations

The reducers here pack the children into a list unless a condition tells against the derivation.

## Main definitions

* `Reducer.refuse`: refuses every derivation
* `Reducer.refuseText`, `Reducer.refuseOrigin`, `Reducer.rightOnly`: refuse by source text, by
  column and by the first child
-/

namespace Earley.Reducer

/-- Refuses every derivation. -/
def refuse : Reducer := fun _ _ =>
  none

/-- Refuses derivations of a given source text. -/
def refuseText (text : String) : Reducer := fun children origin =>
  if Value.renderedAll children = text then none else pack children origin

/-- Refuses derivations that begin in a given column. -/
def refuseOrigin (column : Nat) : Reducer := fun children origin =>
  if origin = column then none else pack children origin

/-- Refuses derivations whose first child is a list, so that repetition nests to the right only. -/
def rightOnly : Reducer := fun children origin =>
  match children with
  | .list _ :: _ => none
  | _ => pack children origin

end Earley.Reducer
