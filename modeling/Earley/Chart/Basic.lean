import Earley.Chart.Column
import Earley.Grammar.Basic

/-!
# Charts

A chart is a row of columns, one for each place of the input that has been reached: column 0 before
the first token, column `n` behind the `n`-th.

## Main definitions

* `Chart`: the columns so far
* `Chart.index`, `Chart.column?`: the number of the last column, and the column of a number
* `Chart.earlier`: the columns before the last one
* `Chart.results`: the values of the finished derivations of a name from the beginning on
* `Chart.summary`: a line about the last column
-/

namespace Earley

/-- **The columns of an input so far**: the last one, and the earlier ones from the latest back. -/
structure Chart where
  head : Column
  older : List Column := []

namespace Chart

/-- The number of the last column, which is the number of tokens taken. -/
def index (chart : Chart) : Nat :=
  chart.older.length

/-- The column of a number. -/
def column? (chart : Chart) (i : Nat) : Option Column :=
  if i ≤ chart.index then (chart.head :: chart.older)[chart.index - i]? else none

/-- The number of items in all columns. -/
def size (chart : Chart) : Nat :=
  (chart.head :: chart.older).foldl (fun n column => n + column.size) 0

/-- The columns before the last one, by number. -/
def earlier (chart : Chart) : Array Column :=
  chart.older.toArray.reverse

@[simp] theorem size_earlier (chart : Chart) : chart.earlier.size = chart.index := by
  simp [earlier, index]

/-- A column before the last one is the one of its number. -/
theorem getElem?_earlier {chart : Chart} {i : Nat} (h : i < chart.index) :
    chart.earlier[i]? = chart.column? i := by
  have : chart.index - i = (chart.older.length - 1 - i) + 1 := by rw [index] at h ⊢; omega
  simp [earlier, column?, Nat.le_of_lt h, this, List.getElem?_reverse (l := chart.older) h]

/-- The chart with an empty column behind the last one. -/
def blank (chart : Chart) : Chart :=
  { head := {}, older := chart.head :: chart.older }

/-- **The results for a name**: the values of the finished items of that name in the last column
that begin in column 0. -/
def results (chart : Chart) (name : String) : List Value :=
  chart.head.items.toList.filterMap fun item =>
    if item.name = name ∧ item.isComplete ∧ item.origin = 0 then item.outcome.value? else none

/-- A line about the last column. -/
def summary (chart : Chart) : String :=
  "Column(" ++ toString chart.index ++ ", " ++ toString chart.head.size ++ " states, "
    ++ toString chart.head.scannable.size ++ " scannable)"

end Chart

end Earley
