import Earley.Chart.Item
import Earley.Chart.Register

/-!
# Columns

A column holds the items whose derivation ends at one place of the input, in the order in which they
came up. Beside them it keeps three lists of places in that order: which items wait for a
nonterminal, which wait for a token, and which are finished without having taken input.

## Main definitions

* `Column`: the items of one place of the input
* `Column.append`, `Column.settle`: adding items, and deciding what has become of one
* `Column.await`, `Column.awaitToken`, `Column.fileEmpty`: keeping the lists
-/

namespace Earley

/-- **The items that end at one place of the input.** -/
structure Column where
  items : Array Item := #[]
  /-- The items that wait for each nonterminal. -/
  wanted : Register := {}
  /-- The items that wait for a token. -/
  scannable : Array Nat := #[]
  /-- The items of each name that are finished, have a value and took no input. -/
  empties : Register := {}

namespace Column

/-- The number of items. -/
def size (column : Column) : Nat :=
  column.items.size

/-- Whether there is no item. -/
def isEmpty (column : Column) : Bool :=
  column.items.isEmpty

/-- Adds items at the end. -/
def append (column : Column) (items : List Item) : Column :=
  { column with items := column.items ++ items }

/-- Decides what has become of an item. -/
def settle (column : Column) (i : Nat) (outcome : Outcome) : Column :=
  { column with items := column.items.modify i fun item => { item with outcome } }

/-- Notes that an item waits for a nonterminal. -/
def await (column : Column) (name : String) (i : Nat) : Column :=
  { column with wanted := column.wanted.file name i }

/-- Notes that an item waits for a token. -/
def awaitToken (column : Column) (i : Nat) : Column :=
  { column with scannable := column.scannable.push i }

/-- Notes that an item is finished without input. -/
def fileEmpty (column : Column) (name : String) (i : Nat) : Column :=
  { column with empties := column.empties.file name i }

/-- The items at the given places. -/
def itemsAt (column : Column) (places : List Nat) : List Item :=
  places.filterMap fun i => column.items[i]?

/-- **The items that wait for a nonterminal**, in order. -/
def waiting (column : Column) (name : String) : List Item :=
  column.itemsAt (column.wanted.get name)

/-- The items of a name that are finished without input, in order, with their values. -/
def finishedEmpty (column : Column) (name : String) : List (Item × Value) :=
  (column.itemsAt (column.empties.get name)).filterMap fun done =>
    done.outcome.value?.map fun v => (done, v)

end Column

end Earley
