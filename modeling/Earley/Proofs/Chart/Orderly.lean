import Earley.Proofs.Chart.Inputs
import Earley.Proofs.Chart.Visiting

/-!
# Columns in order

What can be relied on in a closed column: how far its items have come and where they begin, what has
become of them, which rules stand at their beginning, and that the lists beside the items hold the
places that they should, in order. Whatever goes on from a column, such as completions from later
columns, the next token and reports, looks up places in these lists without a check.

## Main definitions

* `Column.predicted`, `Column.Predicts`: the items at their beginning, and when there are any
* `Column.Lists`: a list of the places of all items of a kind, in order
* `Chart.before`: the columns before one
* `Column.Orderly`: a column in order
* `Chart.Grown`: a chart behind some input, or empty columns behind one

## Main results

* `Column.predicts_of_closeFrom`: the rules of a name are brought in once, if the name is asked for
* `Column.Orderly.moved_eq`: finished items go back to the column where they begin
* `Chart.Reads.orderly`: the columns of a chart are in order
* `Chart.Grown.orderly`: so they are with empty columns behind
-/

namespace Earley

/-! ## The rules at their beginning -/

namespace Column

variable {g : Grammar} {earlier : Array Column} {column closed : Column} {fuel i : Nat} {item : Item}
  {name : String}

/-- **The items of a name at their beginning**, whatever has become of them. -/
def predicted (column : Column) (name : String) : List Item :=
  column.unsettled.filter fun item => item.dot == 0 && item.name == name

/-- **A name has its rules in the column exactly if it is asked for**: each once, in order. -/
def Predicts (g : Grammar) (k : Nat) (column : Column) : Prop :=
  ∀ name, column.predicted name =
    if column.wanted.contains name then (g.rulesFor name).map fun rule => Item.predicted rule k
    else []

/-- The rules that are brought in for a name are of that name. -/
theorem filter_map_predicted (g : Grammar) (k : Nat) (name other : String) :
    ((g.rulesFor name).map fun rule => Item.predicted rule k).filter
        (fun item => item.dot == 0 && item.name == other) =
      if other = name then (g.rulesFor name).map fun rule => Item.predicted rule k else [] := by
  have hname : ∀ rule ∈ g.rulesFor name, rule.name = name := by
    intro rule hrule
    simpa using (List.mem_filter.mp hrule).2
  split
  · next h =>
    subst h
    refine List.filter_eq_self.mpr fun item hitem => ?_
    obtain ⟨rule, hrule, rfl⟩ := List.mem_map.mp hitem
    simp [Item.predicted, Item.name, hname rule hrule]
  · next h =>
    refine List.filter_eq_nil_iff.mpr fun item hitem => ?_
    obtain ⟨rule, hrule, rfl⟩ := List.mem_map.mp hitem
    simp [Item.predicted, Item.name, hname rule hrule, Ne.symm h]

/-- **A visit brings in rules** exactly for a name that it is the first to ask for. -/
theorem Predicts.visit (h : column.Predicts g earlier.size) (hitem : column.items[i]? = some item) :
    (column.visit g earlier i).Predicts g earlier.size := by
  obtain ⟨news, hvisited⟩ := visited_visit g earlier hitem
  intro other
  have hother := h other
  rw [predicted] at hother
  rw [predicted, hvisited.items, List.filter_append, hother]
  rcases hvisited.news with ⟨hmoved, hknown⟩ | ⟨name, hnext, hnew, rfl⟩
  · -- what has moved on is not at its beginning, and no name is new
    have hnone : news.filter (fun item => item.dot == 0 && item.name == other) = [] := by
      refine List.filter_eq_nil_iff.mpr fun x hx => ?_
      simp [hmoved x hx]
    have hsame : (column.visit g earlier i).wanted.contains other =
        column.wanted.contains other := by
      rw [Bool.eq_iff_iff, hvisited.known]
      exact or_iff_left_of_imp (hknown other)
    rw [hnone, List.append_nil, hsame]
  · -- the name is new, and its rules come behind
    rw [filter_map_predicted]
    by_cases ho : other = name
    · subst ho
      have hcontains := (hvisited.known other).mpr (.inr hnext)
      simp [hnew, hcontains]
    · have hsame : (column.visit g earlier i).wanted.contains other =
          column.wanted.contains other := by
        rw [Bool.eq_iff_iff, hvisited.known, hnext]
        refine or_iff_left_of_imp fun heq => ?_
        exact absurd (Symbol.nonterminal.inj (Option.some.inj heq)) (Ne.symm ho)
      rw [if_neg ho, List.append_nil, hsame]

/-- **In a closed column** the rules of a name are there once, if the name is asked for, and if that
was so before. -/
theorem predicts_of_closeFrom (h : column.Predicts g earlier.size)
    (hclose : closeFrom g earlier fuel 0 column = some closed) : closed.Predicts g earlier.size := by
  obtain ⟨-, -, hclosed⟩ := closeFrom_induction (P := fun _ column => column.Predicts g earlier.size)
    (fun _ _ _ hitem hcolumn => hcolumn.visit hitem) h hclose
  exact hclosed

end Column

namespace Chart

variable {g : Grammar} {input : List Token} {chart next : Chart} {fuel k : Nat} {t : Token}
  {column : Column}

theorem predicts_initial (h : Chart.initial g fuel = some chart) : chart.head.Predicts g 0 := by
  obtain ⟨head, hclose, rfl⟩ := Option.map_eq_some_iff.mp h
  refine Column.predicts_of_closeFrom (fun name => ?_) hclose
  have hitems : (seed g).head.unsettled =
      (g.rulesFor g.start).map fun rule => Item.predicted rule 0 := by
    simp [seed, Column.unsettled, Column.append, Item.predicted, Item.unsettled, Function.comp_def]
  have hcontains : (seed g).head.wanted.contains name = decide (name = g.start) := by
    rw [show (seed g).head.wanted = ({} : Register).reserve g.start from rfl,
      Register.contains_reserve]
    simp [Register.contains]
  rw [Column.predicted, hitems, Column.filter_map_predicted, hcontains]
  by_cases hname : name = g.start
  · subst hname
    simp only [if_true, decide_true]
    rfl
  · simp [hname]

/-- What is moved over a token is not at its beginning. -/
theorem predicts_shift (h : chart.shift g fuel t = some next) :
    next.head.Predicts g next.index := by
  have hindex := index_shift h
  obtain ⟨head, hclose, rfl⟩ := Option.map_eq_some_iff.mp h
  have hsize : (behind chart t).earlier.size = chart.index + 1 := size_earlier _
  rw [hindex, ← hsize]
  refine Column.predicts_of_closeFrom (fun name => ?_) hclose
  have hnone : (Column.append {} (chart.scan t)).predicted name = [] := by
    refine List.filter_eq_nil_iff.mpr fun x hx => ?_
    rw [Column.unsettled_append] at hx
    obtain ⟨moved, hmoved, rfl⟩ := List.mem_map.mp hx
    obtain ⟨left, -, hleft⟩ := List.mem_filterMap.mp hmoved
    split at hleft
    · obtain rfl := Option.some.inj hleft
      simp [Item.shift, Item.unsettled]
    · cases hleft
  rw [hnone]
  rfl

end Chart

/-! ## Columns in order -/

/-- **A list of the places of all items of a kind**, in order. -/
def Column.Lists (column : Column) (places : List Nat) (P : Item → Prop) : Prop :=
  places.Pairwise (· < ·) ∧ ∀ i, i ∈ places ↔ ∃ item, column.items[i]? = some item ∧ P item

/-- The columns before the one of a number. -/
def Chart.before (chart : Chart) (k : Nat) : Array Column :=
  chart.earlier.take k

theorem Chart.size_before {chart : Chart} {k : Nat} (hk : k ≤ chart.index) :
    (chart.before k).size = k := by
  simp [before, hk]

/-- **A column in order**: the one of number `k` of a chart. -/
structure Column.Orderly (g : Grammar) (chart : Chart) (k : Nat) (column : Column) : Prop where
  /-- No dot is beyond the end of its rule. -/
  dot_le : ∀ item ∈ column.items, item.dot ≤ item.rule.symbols.length
  /-- There is a child for each symbol before the dot. -/
  length_children : ∀ item ∈ column.items, item.children.length = item.dot
  /-- No item begins in a later column. -/
  origin_le : ∀ item ∈ column.items, item.origin ≤ k
  /-- An item has an earlier column to go back to unless it begins in its own. -/
  home_eq_none_iff : ∀ item ∈ column.items, item.home = none ↔ item.origin = k
  /-- The earlier column that an item goes back to is the one where it begins, and is there. -/
  home_eq_some : ∀ item ∈ column.items, ∀ m, item.home = some m →
    m = item.origin ∧ item.origin < k ∧
      ∃ home, (chart.before k)[m]? = some home ∧ chart.column? item.origin = some home
  /-- The items that wait for a nonterminal are listed under its name. -/
  wanted : ∀ name, column.Lists (column.wanted.get name) fun item =>
    item.next? = some (.nonterminal name)
  /-- The rules of a name are there once, in order, if the name is asked for, and stand at their
  beginning with nothing parsed. There are no others at their beginning. -/
  predicted : ∀ name, column.predicted name =
    if column.wanted.get name ≠ [] ∨ (k = 0 ∧ name = g.start) then
      (g.rulesFor name).map fun rule => Item.predicted rule k
    else []
  /-- The items that wait for a token are listed. -/
  scannable : column.Lists column.scannable.toList fun item =>
    ∃ s, item.next? = some s ∧ s.isTerminal = true
  /-- The items that are finished without input and have a value are listed under their names. -/
  empties : ∀ name, column.Lists (column.empties.get name) fun item =>
    item.isComplete = true ∧ item.name = name ∧ item.origin = k ∧ ∃ v, item.outcome = .value v
  /-- It is decided of the finished items, and of no others, what has become of them. -/
  outcome_eq_pending_iff : ∀ item ∈ column.items, item.outcome = .pending ↔ item.isComplete = false

namespace Column.Orderly

variable {g : Grammar} {chart : Chart} {k : Nat} {column : Column} {item : Item}

/-- **An item goes back to the column where it begins**, be that an earlier one or its own. -/
theorem home_getD (h : column.Orderly g chart k) (hitem : item ∈ column.items) :
    item.home.getD k = item.origin := by
  cases hhome : item.home with
  | none => exact ((h.home_eq_none_iff item hitem).mp hhome).symm
  | some m => exact (h.home_eq_some item hitem m hhome).1

/-- **A finished item moves the items on that wait in the column where it begins.** -/
theorem moved_eq (h : column.Orderly g chart k) (hk : k ≤ chart.index)
    (hcolumn : chart.column? k = some column) (hitem : item ∈ column.items) (v : Value) :
    ∃ home, chart.column? item.origin = some home ∧
      column.moved (chart.before k) item v = (home.waiting item.name).reverse.map fun left =>
        if item.origin = k then left.advance k item v else left.advanceFrom item.origin v := by
  cases hhome : item.home with
  | none =>
    have ho := (h.home_eq_none_iff item hitem).mp hhome
    exact ⟨column, ho ▸ hcolumn, by simp [moved_of_none hhome, ho, Chart.size_before hk]⟩
  | some m =>
    obtain ⟨rfl, hlt, home, hbefore, hback⟩ := h.home_eq_some item hitem m hhome
    exact ⟨home, hback, by simp [moved_of_some hhome hbefore, Nat.ne_of_lt hlt]⟩

end Column.Orderly

/-! ## Items of stems -/

namespace Stem

variable {g : Grammar} {input : List Token} {k : Nat} {s : Stem}

theorem Derived.length_children_settled (h : s.Derived g input k) :
    (s.settled k).children.length = s.children.length := by
  obtain ⟨vs, hvs⟩ := h.valued
  rw [Item.children, List.length_reverse]
  simp [settled, item, hvs, Tree.length_of_values? hvs]

/-- It is open what becomes of a stem that is not finished, and of no other. -/
theorem outcome_eq_pending_iff : s.outcome k = .pending ↔ s.next? ≠ none := by
  unfold outcome
  split
  · next h => simp [h]
  · next h =>
    refine iff_of_false ?_ (fun hne => hne h)
    split
    · simp
    · split <;> simp

end Stem

namespace Column

variable {g : Grammar} {input : List Token} {chart : Chart} {k : Nat} {stems : List Stem}
  {column : Column} {item : Item}

/-- The items of a closed column are those of its stems. -/
theorem Traces.mem_items (h : column.Traces g k stems []) :
    item ∈ column.items ↔ ∃ s ∈ stems, s.settled k = item := by
  rw [← Array.mem_toList_iff, h.items, List.map_nil, List.append_nil, List.mem_map]

/-- The item at a place of a closed column is that of the stem there. -/
theorem Traces.getElem?_items (h : column.Traces g k stems []) (i : Nat) :
    column.items[i]? = stems[i]?.map (Stem.settled k) := by
  rw [← Array.getElem?_toList, h.items, List.map_nil, List.append_nil, List.getElem?_map]

/-- The places of stems of a kind are those of the items of that kind. -/
theorem Traces.lists (h : column.Traces g k stems []) {p : Stem → Bool} {P : Item → Prop}
    (hp : ∀ s ∈ stems, p s = true ↔ P (s.settled k)) : column.Lists (stems.findIdxs p) P := by
  refine ⟨List.pairwise_findIdxs, fun i => ?_⟩
  rw [List.mem_findIdxs_iff_exists_getElem_pos, h.getElem?_items]
  constructor
  · rintro ⟨hi, hpi⟩
    exact ⟨_, by rw [List.getElem?_eq_getElem hi, Option.map_some],
      (hp _ (List.getElem_mem hi)).mp hpi⟩
  · rintro ⟨item, hitem, hP⟩
    obtain ⟨s, hs, rfl⟩ := Option.map_eq_some_iff.mp hitem
    obtain ⟨hi, rfl⟩ := List.getElem?_eq_some_iff.mp hs
    exact ⟨hi, (hp _ (List.getElem_mem hi)).mpr hP⟩

/-- A name that is known is waited for, or is the start in column 0. -/
theorem Traces.contains_iff (h : column.Traces g k stems []) (name : String) :
    column.wanted.contains name = true ↔
      column.wanted.get name ≠ [] ∨ (k = 0 ∧ name = g.start) := by
  rw [h.known, h.wanted, ne_eq, List.findIdxs_eq_nil_iff, Stem.Known, or_comm]
  simp

end Column

/-! ## Charts in order -/

namespace Chart

variable {g : Grammar} {input : List Token} {chart longer : Chart} {k i : Nat} {column : Column}
  {item : Item}

/-- The columns before one are those of smaller numbers. -/
theorem getElem?_before (hk : k ≤ chart.index) (i : Nat) :
    (chart.before k)[i]? = if i < k then chart.column? i else none := by
  have htake : (chart.before k)[i]? = if i < k then chart.earlier[i]? else none := by
    rw [before, Array.take_eq_extract]
    grind
  rw [htake]
  split
  · next hi => exact getElem?_earlier (Nat.lt_of_lt_of_le hi hk)
  · rfl

/-- A number up to the last one has a column. -/
theorem exists_column? (hk : k ≤ chart.index) : ∃ column, chart.column? k = some column := by
  have hlt : chart.index - k < (chart.head :: chart.older).length := by
    rw [List.length_cons, index]
    omega
  exact ⟨_, by rw [column?, if_pos hk, List.getElem?_eq_getElem hlt]⟩

/-- **The columns of a chart have the rules** of the names that are asked for, at their beginning. -/
theorem Reads.predicts (h : Reads g input chart) :
    ∀ k column, chart.column? k = some column → column.Predicts g k := by
  induction h with
  | @initial fuel chart h =>
    intro k column hcolumn
    have hindex := index_initial h
    obtain ⟨rfl, rfl⟩ := eq_head_of_column? (by omega) hcolumn
    rw [hindex]
    exact predicts_initial h
  | @shift fuel input t chart next _ h ih =>
    intro k column hcolumn
    rcases cases_of_column? (older_close h) hcolumn with ⟨-, hbefore⟩ | ⟨rfl, rfl⟩
    · exact ih k column hbefore
    · exact predicts_shift h

/-- **The columns of a chart are in order.** -/
theorem Reads.orderly (h : Reads g input chart) (hcolumn : chart.column? k = some column) :
    column.Orderly g chart k := by
  obtain ⟨stems, htraces, -, hmem⟩ := h.faithful k column hcolumn
  have hk := le_index_of_column? hcolumn
  have hderived : ∀ s ∈ stems, s.Derived g input k := fun s hs => ((hmem s).mp hs).derived
  -- what holds of the items of all stems holds of the items of the column
  have hitems : ∀ {P : Item → Prop}, (∀ s ∈ stems, P (s.settled k)) → ∀ item ∈ column.items,
      P item := by
    intro P hP item hitem
    obtain ⟨s, hs, rfl⟩ := htraces.mem_items.mp hitem
    exact hP s hs
  have horigin : ∀ item ∈ column.items, item.origin ≤ k :=
    hitems fun s hs => (hderived s hs).origin_le
  refine ⟨hitems fun s hs => (hderived s hs).length_children_le,
    hitems fun s hs => (hderived s hs).length_children_settled, horigin, ?_, ?_, ?_, ?_, ?_, ?_, ?_⟩
  · exact hitems fun s _ => Stem.home?_eq_none_iff
  · refine hitems fun s hs m hhome => ?_
    have hne : s.origin ≠ k := fun ho => by simp [Stem.settled, Stem.item, Stem.home?, ho] at hhome
    have hlt : s.origin < k := Nat.lt_of_le_of_ne (hderived s hs).origin_le hne
    obtain rfl : s.origin = m := Option.some.inj ((Stem.home?_of_ne hne).symm.trans hhome)
    obtain ⟨home, hback⟩ := exists_column? (Nat.le_trans (Nat.le_of_lt hlt) hk)
    exact ⟨rfl, hlt, home, by rw [getElem?_before hk, if_pos hlt, hback], hback⟩
  · intro name
    rw [htraces.wanted]
    exact htraces.lists fun s _ => Stem.wants_iff
  · intro name
    rw [h.predicts k column hcolumn name]
    by_cases hcontains : column.wanted.contains name = true
    · rw [if_pos hcontains, if_pos ((htraces.contains_iff name).mp hcontains)]
    · rw [if_neg hcontains, if_neg (mt (htraces.contains_iff name).mpr hcontains)]
  · rw [htraces.scannable]
    exact htraces.lists fun s _ => Stem.scans_iff
  · intro name
    rw [htraces.empties]
    refine htraces.lists fun s _ => ?_
    rw [Stem.isEmptyOf_iff]
    constructor
    · rintro ⟨ho, hname, v, hv⟩
      refine ⟨?_, hname, ho, v, hv⟩
      rw [Item.isComplete, Stem.next?_settled, (Stem.outcome_eq_value_iff.mp hv).1]
      rfl
    · rintro ⟨-, hname, ho, hv⟩
      exact ⟨ho, hname, hv⟩
  · refine hitems fun s _ => ?_
    rw [Item.isComplete, Stem.next?_settled, ← Bool.not_eq_true, Option.isNone_iff_eq_none]
    exact Stem.outcome_eq_pending_iff

/-! ## Empty columns behind -/

/-- **The charts that a session comes to**: one behind some input, and empty columns behind one. -/
inductive Grown (g : Grammar) : Chart → Prop
  | reads {input : List Token} {chart : Chart} (h : Reads g input chart) : Grown g chart
  | blank {chart : Chart} (h : Grown g chart) : Grown g chart.blank

/-- A further token leads on, behind an empty column to an empty one. -/
theorem Grown.shift {fuel : Nat} {t : Token} {next : Chart} (h : Grown g chart)
    (hshift : chart.shift g fuel t = some next) : Grown g next := by
  cases h with
  | reads h => exact .reads (h.shift hshift)
  | @blank chart h =>
    rw [shift_of_head_eq rfl] at hshift
    exact Option.some.inj hshift ▸ .blank (.blank h)

/-- The columns before one of a chart are the same in a longer chart. -/
theorem before_of_older (h : longer.older = chart.head :: chart.older) (hk : k ≤ chart.index) :
    longer.before k = chart.before k := by
  have hindex : longer.index = chart.index + 1 := by simp [index, h]
  apply Array.ext_getElem?
  intro i
  rw [getElem?_before (by omega), getElem?_before hk]
  split
  · next hi => exact column?_of_older h (by omega)
  · rfl

/-- The columns of a chart stay in order in a longer chart. -/
theorem orderly_of_older (h : column.Orderly g chart k)
    (holder : longer.older = chart.head :: chart.older) (hk : k ≤ chart.index) :
    column.Orderly g longer k where
  dot_le := h.dot_le
  length_children := h.length_children
  origin_le := h.origin_le
  home_eq_none_iff := h.home_eq_none_iff
  home_eq_some := by
    intro item hitem m hhome
    obtain ⟨ho, hlt, home, hbefore, hcolumn⟩ := h.home_eq_some item hitem m hhome
    refine ⟨ho, hlt, home, ?_, ?_⟩
    · rwa [before_of_older holder hk]
    · rwa [column?_of_older holder (by omega)]
  wanted := h.wanted
  predicted := h.predicted
  scannable := h.scannable
  empties := h.empties
  outcome_eq_pending_iff := h.outcome_eq_pending_iff

/-- An empty column behind another one is in order. -/
theorem orderly_empty (g : Grammar) (chart : Chart) (k : Nat) :
    Column.Orderly g chart (k + 1) {} where
  dot_le := by simp
  length_children := by simp
  origin_le := by simp
  home_eq_none_iff := by simp
  home_eq_some := by simp
  wanted := by simp [Column.Lists, Register.get, Register.find?]
  predicted := by simp [Column.predicted, Column.unsettled, Register.get, Register.find?]
  scannable := by simp [Column.Lists]
  empties := by simp [Column.Lists, Register.get, Register.find?]
  outcome_eq_pending_iff := by simp

/-- **All columns are in order**, empty ones behind them included. -/
theorem Grown.orderly (h : Grown g chart) (hcolumn : chart.column? k = some column) :
    column.Orderly g chart k := by
  induction h with
  | reads h => exact h.orderly hcolumn
  | @blank chart _ ih =>
    rcases cases_of_column? rfl hcolumn with ⟨hk, hbefore⟩ | ⟨rfl, rfl⟩
    · exact orderly_of_older (ih hbefore) rfl hk
    · exact orderly_empty g chart.blank chart.index

end Chart

end Earley
