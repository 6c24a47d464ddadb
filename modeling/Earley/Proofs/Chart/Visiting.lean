import Earley.Chart.Closure
import Mathlib.Data.List.Basic

/-!
# Visits, item by item

A visit leaves the items of a column where they are and decides at most what has become of one of
them; others come behind. These have moved on, so none of them stands at its beginning, unless the
visit is the first to ask for a name: then they are the rules of that name. All this depends neither
on what the earlier columns hold nor on the grammar that they were closed with.

## Main definitions

* `Item.unsettled`: an item, whatever has become of it
* `Item.awaitsToken`: whether an item waits for a token
* `Column.Visited`: what a visit does to a column

## Main results

* `Column.visited_visit`: every visit does no more than that
* `Column.closeFrom_induction`: what every visit keeps is kept by closing a column
* `Column.exists_of_closeFrom`: closing a column keeps its items
* `Column.scannable_of_closeFrom`: the places of the items that wait for a token
-/

namespace Earley

namespace Item

/-- **The item, whatever has become of it.** -/
def unsettled (item : Item) : Item :=
  { item with outcome := .pending }

/-- Whether the item waits for a token. -/
def awaitsToken (item : Item) : Bool :=
  item.next?.any Symbol.isTerminal

@[simp] theorem unsettled_unsettled (item : Item) : item.unsettled.unsettled = item.unsettled := rfl

@[simp] theorem awaitsToken_unsettled (item : Item) :
    item.unsettled.awaitsToken = item.awaitsToken := rfl

theorem awaitsToken_iff {item : Item} :
    item.awaitsToken = true ↔ ∃ s, item.next? = some s ∧ s.isTerminal = true :=
  Option.any_eq_true _ _

end Item

namespace Column

variable {g : Grammar} {earlier : Array Column} {column closed next : Column} {fuel i : Nat}
  {item : Item} {news : List Item}

/-- The items of a column, whatever has become of them. -/
def unsettled (column : Column) : List Item :=
  column.items.toList.map Item.unsettled

@[simp] theorem length_unsettled (column : Column) : column.unsettled.length = column.size := by
  simp [unsettled, size]

theorem getElem?_unsettled (h : column.items[i]? = some item) :
    column.unsettled[i]? = some item.unsettled := by
  rw [unsettled, List.getElem?_map, Array.getElem?_toList, h, Option.map_some]

/-- An item is there, whatever has become of it. -/
theorem exists_of_getElem?_unsettled {bare : Item} (h : column.unsettled[i]? = some bare) :
    ∃ item, column.items[i]? = some item ∧ item.unsettled = bare := by
  rw [unsettled, List.getElem?_map, Array.getElem?_toList] at h
  exact Option.map_eq_some_iff.mp h

/-- Settling an item does not change the items otherwise. -/
@[simp] theorem unsettled_settle (column : Column) (i : Nat) (outcome : Outcome) :
    (column.settle i outcome).unsettled = column.unsettled := by
  apply List.ext_getElem?
  intro j
  simp only [unsettled, settle, List.getElem?_map, Array.getElem?_toList, Array.getElem?_modify]
  split
  · cases column.items[j]? <;> rfl
  · rfl

@[simp] theorem unsettled_append (column : Column) (items : List Item) :
    (column.append items).unsettled = column.unsettled ++ items.map Item.unsettled := by
  simp [unsettled, append]

/-- **What a visit does** to a column, the visited item being the one at place `i`: the items stay,
whatever becomes of that one, and news come behind. -/
structure Visited (g : Grammar) (earlier : Array Column) (column : Column) (i : Nat) (item : Item)
    (news : List Item) (next : Column) : Prop where
  items : next.unsettled = column.unsettled ++ news
  scannable : next.scannable =
    if item.awaitsToken then column.scannable.push i else column.scannable
  known : ∀ name, next.wanted.contains name = true ↔
    column.wanted.contains name = true ∨ item.next? = some (.nonterminal name)
  news : (∀ x ∈ news, x.dot ≠ 0) ∧
      (∀ name, item.next? = some (.nonterminal name) → column.wanted.contains name = true) ∨
    ∃ name, item.next? = some (.nonterminal name) ∧ column.wanted.contains name = false ∧
      news = (g.rulesFor name).map fun rule => Item.predicted rule earlier.size

/-- What a finished item moves on has waited in the column or in an earlier one, and is one symbol
further. -/
theorem exists_of_mem_moved {moved : Item} {v : Value} (h : moved ∈ column.moved earlier item v) :
    ∃ home, (home = column ∨ home ∈ earlier) ∧ ∃ left ∈ home.waiting item.name,
      moved.rule = left.rule ∧ moved.dot = left.dot + 1 := by
  unfold Column.moved at h
  split at h
  · next m _ =>
    obtain ⟨left, hleft, rfl⟩ := List.mem_map.mp h
    rw [List.mem_reverse] at hleft
    cases hhome : earlier[m]? with
    | none =>
      -- nothing waits where there is no column
      rw [hhome] at hleft
      exact absurd hleft List.not_mem_nil
    | some home =>
      rw [hhome, Option.getD_some] at hleft
      exact ⟨home, .inr (Array.mem_of_getElem? hhome), left, hleft, rfl, rfl⟩
  · obtain ⟨left, hleft, rfl⟩ := List.mem_map.mp h
    exact ⟨column, .inl rfl, left, List.mem_reverse.mp hleft, rfl, rfl⟩

/-- A visit to a finished item adds items that have moved over it, if any. -/
theorem visited_finish (hnext : item.next? = none) :
    ∃ news, Visited g earlier column i item news (column.finish earlier i item) := by
  have hawaits : item.awaitsToken = false := by simp [Item.awaitsToken, hnext]
  have hasks : ∀ name, item.next? = some (.nonterminal name) →
      column.wanted.contains name = true := by simp [hnext]
  have hsettled : ∀ outcome, Visited g earlier column i item [] (column.settle i outcome) :=
    fun outcome => ⟨by simp, by rw [hawaits]; rfl, by simp [hnext, settle], .inl ⟨by simp, hasks⟩⟩
  unfold finish
  split
  · exact ⟨[], hsettled .subsumed⟩
  · split
    · exact ⟨[], hsettled .rejected⟩
    · next v _ =>
      refine ⟨(column.moved earlier item v).map Item.unsettled, ?_, ?_, ?_, .inl ⟨?_, hasks⟩⟩
      · -- filing an item does not touch the items
        dsimp only
        split
        · exact (unsettled_append _ _).trans (by rw [unsettled_settle])
        · exact (unsettled_append _ _).trans (by rw [unsettled_settle])
      · rw [hawaits]
        dsimp only
        split <;> rfl
      · intro name
        dsimp only
        split <;> simp [fileEmpty, append, settle, hnext]
      · intro x hx
        obtain ⟨moved, hmoved, rfl⟩ := List.mem_map.mp hx
        obtain ⟨-, -, left, -, -, hdot⟩ := exists_of_mem_moved hmoved
        exact ne_of_eq_of_ne hdot (Nat.succ_ne_zero left.dot)

/-- A visit to an item in front of a nonterminal brings in the rules if it is the first to ask, and
else adds the item, moved over what is finished without input. -/
theorem visited_ask {name : String} (hnext : item.next? = some (.nonterminal name)) :
    ∃ news, Visited g earlier column i item news (column.ask g earlier i item name) := by
  have hawaits : item.awaitsToken = false := by simp [Item.awaitsToken, hnext, Symbol.isTerminal]
  have hknown : ∀ other, (column.await name i).wanted.contains other = true ↔
      column.wanted.contains other = true ∨ item.next? = some (.nonterminal other) := by
    intro other
    simp [await, Register.contains_file, hnext, or_comm, eq_comm (a := name)]
  unfold ask
  by_cases hcontains : column.wanted.contains name = true
  · simp only [hcontains, if_true]
    refine ⟨_, unsettled_append _ _, by rw [hawaits]; rfl, hknown, .inl ⟨?_, ?_⟩⟩
    · intro x hx
      obtain ⟨moved, hmoved, rfl⟩ := List.mem_map.mp hx
      obtain ⟨⟨done, v⟩, -, rfl⟩ := List.mem_map.mp hmoved
      exact Nat.succ_ne_zero item.dot
    · intro other hother
      obtain rfl : name = other := by simpa [hnext] using hother
      exact hcontains
  · have hcontains : column.wanted.contains name = false := Bool.eq_false_iff.mpr hcontains
    simp only [hcontains, Bool.false_eq_true, if_false]
    refine ⟨_, unsettled_append _ _, by rw [hawaits]; rfl, hknown,
      .inr ⟨name, hnext, hcontains, ?_⟩⟩
    rw [List.map_map]
    rfl

/-- **Every visit** leaves the items, but for what becomes of the visited one, and adds news. -/
theorem visited_visit (g : Grammar) (earlier : Array Column) (h : column.items[i]? = some item) :
    ∃ news, Visited g earlier column i item news (column.visit g earlier i) := by
  unfold visit
  rw [h]
  dsimp only
  split
  · next hnext => exact visited_finish hnext
  · next name hnext => exact visited_ask hnext
  · next s hne hnext =>
    -- what is neither finished nor in front of a nonterminal waits for a token
    have hterminal : s.isTerminal = true := by
      cases s with
      | nonterminal name => exact absurd rfl (hne name)
      | _ => rfl
    have hawaits : item.awaitsToken = true := Item.awaitsToken_iff.mpr ⟨s, hnext, hterminal⟩
    have hother : ∀ name, item.next? ≠ some (.nonterminal name) := by
      intro name
      rw [hnext]
      exact fun heq => hne name (Option.some.inj heq)
    exact ⟨[], by simp [awaitToken, unsettled], by rw [hawaits]; rfl,
      fun name => (or_iff_left (hother name)).symm,
      .inl ⟨by simp, fun name hname => absurd hname (hother name)⟩⟩

/-- **What every visit keeps** is kept by closing a column: it holds in the end, when as many items
have been visited as there are. -/
theorem closeFrom_induction {P : Nat → Column → Prop}
    (hvisit : ∀ (i : Nat) (column : Column) (item : Item), column.items[i]? = some item →
      P i column → P (i + 1) (column.visit g earlier i))
    (h : P i column) (hclose : closeFrom g earlier fuel i column = some closed) :
    ∃ n, closed.size ≤ n ∧ P n closed := by
  induction fuel generalizing i column with
  | zero =>
    rw [closeFrom] at hclose
    split at hclose
    · contradiction
    · next hi =>
      obtain rfl := Option.some.inj hclose
      exact ⟨i, Nat.le_of_not_lt hi, h⟩
  | succ fuel ih =>
    rw [closeFrom] at hclose
    split at hclose
    · next hi => exact ih (hvisit i column _ (Array.getElem?_eq_getElem hi) h) hclose
    · next hi =>
      obtain rfl := Option.some.inj hclose
      exact ⟨i, Nat.le_of_not_lt hi, h⟩

/-- **Closing a column keeps its items**, but for what becomes of them. -/
theorem exists_of_closeFrom {j : Nat} (h : column.items[j]? = some item)
    (hclose : closeFrom g earlier fuel i column = some closed) :
    ∃ kept, closed.items[j]? = some kept ∧ kept.unsettled = item.unsettled := by
  have hvisit : ∀ (i : Nat) (column : Column) (visited : Item),
      column.items[i]? = some visited → column.unsettled[j]? = some item.unsettled →
        (column.visit g earlier i).unsettled[j]? = some item.unsettled := by
    intro i column visited hvisited hkept
    obtain ⟨news, hnext⟩ := visited_visit g earlier hvisited
    have hj : j < column.unsettled.length := (List.getElem?_eq_some_iff.mp hkept).1
    rw [hnext.items, List.getElem?_append_left hj, hkept]
  obtain ⟨-, -, hkept⟩ := closeFrom_induction
    (P := fun _ column => column.unsettled[j]? = some item.unsettled) hvisit
    (getElem?_unsettled h) hclose
  exact exists_of_getElem?_unsettled hkept

/-! ## The items that wait for a token -/

/-- A visit notes the visited item if that waits for a token. -/
theorem scannable_visit (h : column.items[i]? = some item)
    (hnoted : column.scannable.toList = (column.unsettled.take i).findIdxs Item.awaitsToken) :
    (column.visit g earlier i).scannable.toList =
      ((column.visit g earlier i).unsettled.take (i + 1)).findIdxs Item.awaitsToken := by
  obtain ⟨news, hvisited⟩ := visited_visit g earlier h
  have hi : i < column.unsettled.length := by
    rw [length_unsettled]
    exact (Array.getElem?_eq_some_iff.mp h).1
  have hlength : (column.unsettled.take i).length = i := List.length_take_of_le (Nat.le_of_lt hi)
  -- the items up to the visited one are those that were there
  have htake : (column.visit g earlier i).unsettled.take (i + 1) =
      column.unsettled.take i ++ [item.unsettled] := by
    rw [hvisited.items, List.take_append_of_le_length hi, List.take_add_one,
      getElem?_unsettled h, Option.toList_some]
  rw [htake, List.findIdxs_append, List.findIdxs_singleton, hlength, ← hnoted, hvisited.scannable,
    Nat.zero_add, Item.awaitsToken_unsettled]
  split
  · exact Array.toList_push
  · exact (List.append_nil _).symm

/-- **A closed column has noted the items that wait for a token**, whichever the earlier columns are,
if it had noted none before. -/
theorem scannable_of_closeFrom (hnone : column.scannable = #[])
    (hclose : closeFrom g earlier fuel 0 column = some closed) :
    closed.scannable.toList = closed.items.toList.findIdxs Item.awaitsToken := by
  have hbegin : column.scannable.toList =
      (column.unsettled.take 0).findIdxs Item.awaitsToken := by rw [hnone]; rfl
  obtain ⟨n, hn, hnoted⟩ := closeFrom_induction
    (P := fun i column => column.scannable.toList =
      (column.unsettled.take i).findIdxs Item.awaitsToken)
    (fun _ _ _ => scannable_visit) hbegin hclose
  rw [hnoted, List.take_of_length_le (by rwa [length_unsettled]), unsettled, List.findIdxs_map]
  rfl

end Column

end Earley
