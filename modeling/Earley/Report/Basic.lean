import Earley.Chart.Trail
import Earley.Report.Runs

/-!
# Reports

A report says why the input could not go on: what was found, which symbols could have come instead,
and for each of them the trail of the item that waits for it. If none could have come, the report
shows the items of the last column instead.

## Main definitions

* `Expectation`: a symbol that could have come, and why
* `Chart.expectations`: the symbols that could come next
* `Report`, `Chart.report`: what there is to say about an unexpected input
* `Report.render`: its text
-/

namespace Earley

/-- **A symbol that could come next**, with the trail of the item that waits for it. -/
structure Expectation where
  symbol : Symbol
  trail : List Item

/-- The expectation of the item at a place of the last column, if it waits for a token. -/
def Chart.expectation? (chart : Chart) (item : Item) (entry : Nat) : Option Expectation :=
  (item.next?.filter Symbol.isTerminal).map fun symbol =>
    { symbol, trail := chart.trail { column := chart.index, entry } }

/-- **The symbols that could come next**, in the order of the items that wait for them. -/
def Chart.expectations (chart : Chart) : List Expectation :=
  chart.head.items.toList.zipIdx.filterMap fun (item, entry) => chart.expectation? item entry

/-- **Why the input could not go on.** -/
structure Report where
  /-- Where that was. -/
  headline : String
  /-- What was found there. -/
  found : String
  expected : List Expectation
  /-- The items of the last column. -/
  items : List Item

/-- The report on something found behind the input of a chart. -/
def Chart.report (chart : Chart) (headline found : String) : Report :=
  { headline, found, expected := chart.expectations, items := chart.head.items.toList }

namespace Report

/-- The lines of a run of items that are written alike: the item, and how many more there are. -/
def runLines (display : String) (count : Nat) : List String :=
  ("    " ++ display) ::
    if 1 < count then
      ["    ^ " ++ toString (count - 1) ++ " more lines identical to this"]
    else
      []

/-- The lines of a list of items. -/
def itemLines (items : List Item) : List String :=
  (runs (items.map Item.display)).flatMap fun (display, count) => runLines display count

/-- The lines of an expectation. -/
def expectationLines (e : Expectation) : List String :=
  ("A " ++ e.symbol.description ++ " based on:") :: itemLines e.trail

/-- The lines behind the headline. -/
def bodyLines (r : Report) : List String :=
  if r.expected.isEmpty then
    ("Unexpected " ++ r.found ++ ". I did not expect any more input. "
      ++ "Here is the state of my parse table:\n") :: itemLines r.items
  else
    ("Unexpected " ++ r.found ++ ". Instead, I was expecting to see one of the following:\n")
      :: r.expected.flatMap expectationLines

/-- **The text of a report.** -/
def render (r : Report) : String :=
  "\n".intercalate (r.headline :: r.bodyLines ++ [""])

end Report

end Earley
