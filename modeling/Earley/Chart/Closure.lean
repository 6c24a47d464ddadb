import Earley.Chart.Basic

/-!
# Closing a column

The items of the last column are visited one after the other, and visits add items at the end,
which are visited in their turn. A finished item moves the items on that waited for it; an item in
front of a nonterminal asks for it; an item in front of a terminal waits for the next token.

A nonterminal is asked for once in a column, which brings in its rules. An item that asks later
finds the derivations without input that are finished already, and is moved on by those that finish
later.

A grammar in which a name derives itself over the same stretch of input, and not only over the empty
one, has columns that never close. Closing therefore gets a bound on the number of visits, and gives
no column if that is not enough.

## Main definitions

* `Column.moved`: the items that a finished item moves on
* `Column.finish`, `Column.ask`, `Column.visit`: a visit to one item, given the earlier columns
* `Column.closeFrom`: visits to all items
* `Chart.close`: a chart with its last column closed
* `Chart.initial`: column 0, closed
* `Chart.scan`, `Chart.shift`: the items moved over a token, and the next column, closed

## Main results

* `Column.closeFrom_mono`: a column that closes within a bound is the same under any larger one
* `Chart.older_close`: closing leaves the earlier columns alone
* `Chart.index_initial`, `Chart.index_shift`: every token adds one column
-/

namespace Earley

namespace Column

variable (g : Grammar) (earlier : Array Column)

/-- **The items that a finished item of value `v` moves on**: those that wait for it, from the latest
back. They stand in the earlier column to which it goes back, or else in the present one. -/
def moved (column : Column) (item : Item) (v : Value) : List Item :=
  match item.home with
  | some m => ((earlier[m]?.getD {}).waiting item.name).reverse.map (·.advanceFrom m v)
  | none => (column.waiting item.name).reverse.map (·.advance earlier.size item v)

/-- A visit to the finished item at place `i`. The items that it moves on come behind the present
ones. -/
def finish (column : Column) (i : Nat) (item : Item) : Column :=
  if item.home = none ∧ item.origin = earlier.size ∧ item.name ∈ item.nulled then
    column.settle i .subsumed
  else
    match item.rule.reduce item.children item.origin with
    | none => column.settle i .rejected
    | some v =>
      let next := (column.settle i (.value v)).append (column.moved earlier item v)
      if item.home = none then next.fileEmpty item.name i else next

/-- A visit to the item at place `i` in front of the nonterminal `name`. The first one to ask
brings in the rules; a later one is moved over what is finished without input. -/
def ask (column : Column) (i : Nat) (item : Item) (name : String) : Column :=
  let news :=
    if column.wanted.contains name then
      (column.finishedEmpty name).map fun (done, v) => item.advance earlier.size done v
    else
      (g.rulesFor name).map fun rule => Item.predicted rule earlier.size
  (column.await name i).append news

/-- **A visit to the item at place `i`** of the column behind the earlier ones. -/
def visit (column : Column) (i : Nat) : Column :=
  match column.items[i]? with
  | none => column
  | some item =>
    match item.next? with
    | none => column.finish earlier i item
    | some (.nonterminal name) => column.ask g earlier i item name
    | some _ => column.awaitToken i

/-- Visits the items from place `i` on, those included that the visits add, unless they are more
than `fuel`. -/
def closeFrom : (fuel i : Nat) → Column → Option Column
  | 0, i, column => if i < column.size then none else some column
  | fuel + 1, i, column =>
    if i < column.size then closeFrom fuel (i + 1) (column.visit g earlier i) else some column

variable {g : Grammar} {earlier : Array Column}

theorem moved_of_none {column : Column} {item : Item} {v : Value} (h : item.home = none) :
    column.moved earlier item v =
      (column.waiting item.name).reverse.map (·.advance earlier.size item v) := by
  rw [moved, h]

theorem moved_of_some {column home : Column} {item : Item} {v : Value} {m : Nat}
    (h : item.home = some m) (hhome : earlier[m]? = some home) :
    column.moved earlier item v = (home.waiting item.name).reverse.map (·.advanceFrom m v) := by
  simp only [moved, h, hhome, Option.getD_some]

/-- **A larger bound changes nothing** once a column closes. -/
theorem closeFrom_mono {fuel i more : Nat} {column closed : Column}
    (h : closeFrom g earlier fuel i column = some closed) (hle : fuel ≤ more) :
    closeFrom g earlier more i column = some closed := by
  induction fuel generalizing i column more with
  | zero =>
    rw [closeFrom] at h
    split at h
    · cases h
    · next hi =>
      cases more with
      | zero => rw [closeFrom, if_neg hi, h]
      | succ more => rw [closeFrom, if_neg hi, h]
  | succ fuel ih =>
    obtain ⟨more, rfl⟩ : ∃ n, more = n + 1 := ⟨more - 1, by omega⟩
    rw [closeFrom] at h ⊢
    split at h
    · next hi =>
      rw [if_pos hi]
      exact ih h (by omega)
    · next hi => rw [if_neg hi, h]

end Column

namespace Chart

/-- **Closes the last column** by at most `fuel` visits. -/
def close (g : Grammar) (fuel : Nat) (chart : Chart) : Option Chart :=
  (Column.closeFrom g chart.earlier fuel 0 chart.head).map fun head => { chart with head }

/-- Column 0 before any visit: the rules of the start, which counts as asked for. -/
def seed (g : Grammar) : Chart :=
  { head := Column.append { wanted := ({} : Register).reserve g.start }
      ((g.rulesFor g.start).map fun rule => Item.predicted rule 0) }

/-- **The chart before any input.** -/
def initial (g : Grammar) (fuel : Nat) : Option Chart :=
  close g fuel (seed g)

/-- The items of the last column moved over a token, from the latest back. -/
def scan (chart : Chart) (t : Token) : List Item :=
  (chart.head.itemsAt chart.head.scannable.toList).reverse.filterMap fun item =>
    if item.next?.any (·.accepts t) then some (item.shift chart.index t) else none

/-- **The chart behind a further token.** The new column is empty if no item waits for such a
token. -/
def shift (g : Grammar) (fuel : Nat) (chart : Chart) (t : Token) : Option Chart :=
  close g fuel { head := Column.append {} (chart.scan t), older := chart.head :: chart.older }

section Lemmas

variable {g : Grammar} {fuel : Nat} {chart closed : Chart}

/-- Closing leaves the earlier columns alone. -/
theorem older_close (h : close g fuel chart = some closed) : closed.older = chart.older := by
  obtain ⟨head, -, rfl⟩ := Option.map_eq_some_iff.1 h
  rfl

/-- **A larger bound changes nothing** once a chart closes. -/
theorem close_mono {more : Nat} (h : close g fuel chart = some closed) (hle : fuel ≤ more) :
    close g more chart = some closed := by
  obtain ⟨head, hhead, rfl⟩ := Option.map_eq_some_iff.1 h
  rw [close, Column.closeFrom_mono hhead hle, Option.map_some]

/-- Before any input there is column 0 only. -/
theorem index_initial (h : initial g fuel = some chart) : chart.index = 0 := by
  rw [index, older_close h]
  rfl

/-- **A token adds one column.** -/
theorem index_shift {t : Token} (h : shift g fuel chart t = some closed) :
    closed.index = chart.index + 1 := by
  rw [index, older_close h]
  rfl

end Lemmas

end Chart

end Earley
