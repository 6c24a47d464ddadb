import Earley.Chart.Basic

/-!
# Trails

The trail of an item explains why the chart holds it: the item itself, the item that asked for it,
the item that asked for that one, and so on. Of several items that asked, the first counts. The
trail ends at an item nobody asked for, or before it would come to an item a second time.

## Main definitions

* `Chart.Place`: an item's place in a chart
* `Chart.asker?`: where the first item stands that asked for a given one
* `Chart.trail`: the trail of an item
-/

namespace Earley.Chart

/-- **The place of an item**: its column and its place there. -/
structure Place where
  column : Nat
  entry : Nat
deriving DecidableEq, Repr

/-- The item at a place. -/
def item? (chart : Chart) (place : Place) : Option Item :=
  (chart.column? place.column).bind fun column => column.items[place.entry]?

/-- The place of the first item that asked for the one at a given place: it waits for its name in the
column to which that one goes back, or else in the same column. -/
def asker? (chart : Chart) (place : Place) (item : Item) : Option Place :=
  let home := item.home.getD place.column
  (chart.column? home).bind fun column =>
    (column.wanted.get item.name).head?.map fun entry => { column := home, entry }

/-- The trail from a place on, avoiding the places seen, with at most `steps` items. -/
def trailFrom (chart : Chart) : (steps : Nat) → (seen : List Place) → Place → List Item
  | 0, _, _ => []
  | steps + 1, seen, place =>
    if place ∈ seen then
      []
    else
      match chart.item? place with
      | none => []
      | some item =>
        item ::
          match chart.asker? place item with
          | none => []
          | some asker => trailFrom chart steps (place :: seen) asker

/-- **The trail of the item at a place.** It has no more items than the chart. -/
def trail (chart : Chart) (place : Place) : List Item :=
  trailFrom chart chart.size [] place

end Earley.Chart
