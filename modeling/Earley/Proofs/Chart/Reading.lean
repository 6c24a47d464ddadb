import Earley.Proofs.Chart.Closing

/-!
# Charts that have read an input

The chart behind an input arises from column 0 by one shift for each token. Each of its columns
holds the items of the charted stems, each stem once: no derivation is lost, none is there twice,
and nothing else is there.

## Main definitions

* `Chart.Reads`: the charts behind an input
* `Column.Faithful`: a closed column that holds the charted stems
* `Chart.behind`: the chart behind a token before its last column is closed

## Main results

* `Chart.Reads.faithful`: all columns of a chart are faithful
* `Chart.exists_of_not_initial`: a column 0 that does not close comes to hold as many charted stems
  as wanted
-/

namespace Earley

/-- **A closed column is faithful** if its items are those of the charted stems, each once. -/
def Column.Faithful (g : Grammar) (input : List Token) (k : Nat) (column : Column) : Prop :=
  ∃ stems : List Stem, column.Traces g k stems [] ∧ stems.Nodup ∧
    ∀ s, s ∈ stems ↔ s.Charted g input k

/-- Later tokens leave a column faithful. -/
theorem Column.Faithful.append {g : Grammar} {input : List Token} {k : Nat} {column : Column}
    (h : column.Faithful g input k) (hk : k ≤ input.length) (more : List Token) :
    column.Faithful g (input ++ more) k := by
  obtain ⟨stems, htraces, hnodup, hmem⟩ := h
  refine ⟨stems, htraces, hnodup, fun s => ?_⟩
  rw [hmem, Stem.charted_append hk]

namespace Chart

/-- **The charts behind an input**: column 0, and a shift for each token. -/
inductive Reads (g : Grammar) : List Token → Chart → Prop
  | initial {fuel : Nat} {chart : Chart} (h : Chart.initial g fuel = some chart) : Reads g [] chart
  | shift {fuel : Nat} {input : List Token} {t : Token} {chart next : Chart}
      (hchart : Reads g input chart) (h : chart.shift g fuel t = some next) :
      Reads g (input ++ [t]) next

variable {g : Grammar} {input : List Token} {chart next : Chart} {fuel : Nat} {t : Token}

/-- A chart has a column for each token and one before them. -/
theorem Reads.index_eq (h : Reads g input chart) : chart.index = input.length := by
  induction h with
  | initial h => exact index_initial h
  | shift _ h ih => rw [index_shift h, ih, List.length_append, List.length_singleton]

/-! ## The columns of a longer chart -/

theorem column?_index (chart : Chart) : chart.column? chart.index = some chart.head := by
  simp [column?]

/-- A further column leaves the others where they are. -/
theorem column?_of_older {longer : Chart} (h : longer.older = chart.head :: chart.older) {i : Nat}
    (hi : i ≤ chart.index) : longer.column? i = chart.column? i := by
  have hindex : longer.index = chart.index + 1 := by simp [index, h]
  have hsub : longer.index - i = (chart.index - i) + 1 := by omega
  rw [column?, column?, if_pos (by omega), if_pos hi, hsub, List.getElem?_cons_succ, h]

theorem le_index_of_column? {k : Nat} {column : Column} (h : chart.column? k = some column) :
    k ≤ chart.index := by
  by_contra hk
  rw [column?, if_neg hk] at h
  cases h

/-- From the number of the last column on, there is only the last column. -/
theorem eq_head_of_column? {k : Nat} {column : Column} (hk : chart.index ≤ k)
    (h : chart.column? k = some column) : k = chart.index ∧ column = chart.head := by
  obtain rfl : k = chart.index := Nat.le_antisymm (le_index_of_column? h) hk
  rw [column?_index] at h
  exact ⟨rfl, (Option.some.inj h).symm⟩

/-- The columns of a chart with a further one are the others and that. -/
theorem cases_of_column? {longer : Chart} {k : Nat} {column : Column}
    (holder : longer.older = chart.head :: chart.older) (h : longer.column? k = some column) :
    (k ≤ chart.index ∧ chart.column? k = some column) ∨
      (k = longer.index ∧ column = longer.head) := by
  have hindex : longer.index = chart.index + 1 := by simp [index, holder]
  by_cases hk : k ≤ chart.index
  · exact .inl ⟨hk, by rwa [column?_of_older holder hk] at h⟩
  · exact .inr (eq_head_of_column? (by omega) h)

/-! ## Beginning a column -/

section Beginning

/-- Faithful columns give the stems that the next column goes back to. -/
theorem exists_backing {earlier : Array Column}
    (h : ∀ (m : Nat) (column : Column), earlier[m]? = some column → column.Faithful g input m) :
    ∃ before : Nat → List Stem, Backing g input earlier before := by
  -- a column holds its charted stems; for a number without a column any list will do
  have hall : ∀ m : Nat, ∃ stems : List Stem, ∀ column, earlier[m]? = some column →
      column.Traces g m stems [] ∧ stems.Nodup ∧ ∀ s, s ∈ stems ↔ s.Charted g input m := by
    intro m
    cases hm : earlier[m]? with
    | none => exact ⟨[], fun column hcolumn => nomatch hcolumn⟩
    | some column =>
      obtain ⟨stems, hstems⟩ := h m column hm
      refine ⟨stems, fun column' hcolumn => ?_⟩
      obtain rfl := Option.some.inj hcolumn
      exact hstems
  choose before hbefore using hall
  refine ⟨before, ⟨?_, ?_, ?_⟩⟩
  · intro m column name hcolumn
    exact (hbefore m column hcolumn).1.waiting name
  · intro m hm
    exact (hbefore m _ (Array.getElem?_eq_getElem hm)).2.2
  · intro m hm
    exact (hbefore m _ (Array.getElem?_eq_getElem hm)).2.1

/-- Column 0 begins with the rules of the start. -/
theorem traces_seed (g : Grammar) :
    (seed g).head.Traces g 0 [] (Stem.alternatives g 0 g.start) where
  items := by
    rw [Stem.map_item_alternatives]
    simp [seed, Column.append]
  wanted := by
    intro name
    rw [show (seed g).head.wanted = ({} : Register).reserve g.start from rfl, Register.get_reserve]
    rfl
  known := by
    intro name
    rw [show (seed g).head.wanted = ({} : Register).reserve g.start from rfl,
      Register.contains_reserve]
    simp [Stem.Known, Register.contains]
  scannable := rfl
  empties := fun _ => rfl

theorem closing_seed (g : Grammar) (input : List Token) (before : Nat → List Stem) :
    Closing g input before 0 [] (Stem.alternatives g 0 g.start) where
  nodup := Stem.nodup_alternatives g 0 g.start
  mem_iff := by
    intro s
    rw [List.nil_append, Stem.mem_alternatives]
    constructor
    · rintro ⟨rule, a, hrule, rfl⟩
      exact .predict (.inl ⟨rfl, rfl⟩) hrule
    · intro h
      cases h with
      | scan h =>
        obtain ⟨j, -, -, -, hj, -⟩ := h
        exact nomatch hj
      | predict hknown hrule =>
        rcases hknown with ⟨-, rfl⟩ | ⟨w, hw, -⟩
        · exact ⟨_, _, hrule, rfl⟩
        · exact absurd hw List.not_mem_nil
      | complete hd => exact absurd hd List.not_mem_nil
  charted := by
    intro s hs
    obtain ⟨rule, a, hrule, rfl⟩ := Stem.mem_alternatives.mp hs
    exact .start hrule
  known := by
    intro s hs _
    obtain ⟨rule, a, hrule, rfl⟩ := Stem.mem_alternatives.mp hs
    exact .inl ⟨rfl, Grammar.name_of_rulesFor hrule⟩

/-- The stems moved over a token, from the latest back. -/
def scanned (t : Token) (stems : List Stem) : List Stem :=
  (stems.filter Stem.scans).reverse.filterMap fun w =>
    if w.next?.any (·.accepts t) then some (w.push (.leaf t)) else none

theorem mem_scanned {stems : List Stem} {x : Stem} :
    x ∈ scanned t stems ↔
      ∃ w ∈ stems, ∃ sym, w.next? = some sym ∧ sym.accepts t = true ∧ x = w.push (.leaf t) := by
  unfold scanned
  simp only [List.mem_filterMap, List.mem_reverse, List.mem_filter, Option.ite_none_right_eq_some,
    Option.some.injEq, Option.any_eq_true]
  constructor
  · rintro ⟨w, ⟨hw, -⟩, ⟨sym, hnext, haccepts⟩, rfl⟩
    exact ⟨w, hw, sym, hnext, haccepts, rfl⟩
  · rintro ⟨w, hw, sym, hnext, haccepts, rfl⟩
    have hscans := Stem.scans_iff.mpr ⟨sym, hnext, Symbol.isTerminal_of_accepts haccepts⟩
    exact ⟨w, ⟨hw, hscans⟩, ⟨sym, hnext, haccepts⟩, rfl⟩

theorem nodup_scanned {stems : List Stem} (h : stems.Nodup) : (scanned t stems).Nodup := by
  refine List.Nodup.filterMap (fun w w' x hw hw' => ?_) (List.nodup_reverse.mpr (h.filter _))
  simp only [Option.mem_def, Option.ite_none_right_eq_some, Option.some.injEq] at hw hw'
  exact (Stem.push_inj (hw.2.trans hw'.2.symm)).1

/-- The chart behind a token before any visit to its last column. -/
def behind (chart : Chart) (t : Token) : Chart :=
  { head := Column.append {} (chart.scan t), older := chart.head :: chart.older }

/-- The columns before a further one are those that were there. -/
theorem column?_of_earlier_behind {m : Nat} {column : Column}
    (h : (behind chart t).earlier[m]? = some column) :
    m ≤ chart.index ∧ chart.column? m = some column := by
  have hlt : m < chart.index + 1 := by
    have := (Array.getElem?_eq_some_iff.mp h).1
    rwa [size_earlier] at this
  rw [getElem?_earlier hlt, column?_of_older rfl (by omega)] at h
  exact ⟨by omega, h⟩

/-- A scan moves the items of the stems that take the token. -/
theorem scan_eq {stems : List Stem} (htraces : chart.head.Traces g chart.index stems [])
    (hderived : ∀ s ∈ stems, s.Derived g input chart.index) :
    chart.scan t = (scanned t stems).map (Stem.item (chart.index + 1)) := by
  rw [scan, htraces.waitingForToken, scanned, ← List.map_reverse, List.filterMap_map,
    List.map_filterMap]
  apply List.filterMap_congr
  intro w hw
  have hmem : w ∈ stems := (List.mem_filter.mp (List.mem_reverse.mp hw)).1
  by_cases haccepts : w.next?.any (·.accepts t) = true
  · simp [haccepts, Stem.item_push_leaf (hderived w hmem)]
  · simp [haccepts]

theorem traces_scan {stems : List Stem} (htraces : chart.head.Traces g chart.index stems [])
    (hderived : ∀ s ∈ stems, s.Derived g input chart.index) :
    (Column.append {} (chart.scan t)).Traces g (chart.index + 1) [] (scanned t stems) where
  items := by
    rw [scan_eq htraces hderived]
    simp [Column.append]
  wanted := fun _ => rfl
  known := by
    intro name
    simp [Column.append, Register.contains, Stem.Known]
  scannable := rfl
  empties := fun _ => rfl

theorem closing_scanned {k : Nat} {stems : List Stem} (before : Nat → List Stem)
    (htoken : input[k]? = some t) (hnodup : stems.Nodup)
    (hmem : ∀ s, s ∈ stems ↔ s.Charted g input k) :
    Closing g input before (k + 1) [] (scanned t stems) where
  nodup := nodup_scanned hnodup
  mem_iff := by
    intro x
    rw [List.nil_append, mem_scanned]
    constructor
    · rintro ⟨w, hw, sym, hnext, haccepts, rfl⟩
      exact .scan ⟨k, w, sym, t, rfl, (hmem w).mp hw, hnext, htoken, haccepts, rfl⟩
    · intro h
      cases h with
      | scan h =>
        obtain ⟨j, w, sym, t', hj, hw, hnext, htoken', haccepts, rfl⟩ := h
        obtain rfl := Nat.succ.inj hj
        obtain rfl := Option.some.inj (htoken.symm.trans htoken')
        exact ⟨w, (hmem w).mpr hw, sym, hnext, haccepts, rfl⟩
      | predict hknown =>
        rcases hknown with ⟨hk, -⟩ | ⟨w, hw, -⟩
        · exact nomatch hk
        · exact absurd hw List.not_mem_nil
      | complete hd => exact absurd hd List.not_mem_nil
  charted := by
    intro x hx
    obtain ⟨w, hw, sym, hnext, haccepts, rfl⟩ := mem_scanned.mp hx
    exact ((hmem w).mp hw).scan hnext htoken haccepts
  known := by
    intro x hx ho
    obtain ⟨w, hw, sym, -, -, rfl⟩ := mem_scanned.mp hx
    have hle := ((hmem w).mp hw).derived.origin_le
    -- a stem that has moved over a token begins in an earlier column
    rw [Stem.origin_push] at ho
    omega

end Beginning

/-! ## Closed columns -/

theorem faithful_of_closeFrom {earlier : Array Column} {before : Nat → List Stem} {k : Nat}
    {todo : List Stem} {column closed : Column} (h : Closing g input before k [] todo)
    (htraces : column.Traces g k [] todo) (hback : Backing g input earlier before)
    (hk : earlier.size = k) (hclose : Column.closeFrom g earlier fuel 0 column = some closed) :
    closed.Faithful g input k := by
  obtain ⟨stems, hclosing, hclosed⟩ := h.exists_of_closeFrom htraces hback hk hclose
  exact ⟨stems, hclosed, (List.nodup_append.mp hclosing.nodup).1,
    hclosing.mem_iff_charted hback hk⟩

theorem backing_empty (g : Grammar) (input : List Token) :
    Backing g input #[] fun _ => [] where
  waiting := by simp
  charted := by simp
  nodup := by simp

/-- **Column 0 is faithful.** -/
theorem faithful_initial (h : Chart.initial g fuel = some chart) :
    chart.head.Faithful g [] 0 := by
  obtain ⟨head, hclose, rfl⟩ := Option.map_eq_some_iff.mp h
  exact faithful_of_closeFrom (closing_seed g [] _) (traces_seed g) (backing_empty g []) rfl hclose

/-- **A further column begins** with the stems that take the token, if those before it are
faithful. -/
theorem exists_closing_scan (hindex : chart.index = input.length)
    (hcolumns : ∀ i column, chart.column? i = some column → column.Faithful g input i)
    (t : Token) :
    ∃ (before : Nat → List Stem) (todo : List Stem),
      Closing g (input ++ [t]) before (input.length + 1) [] todo ∧
        (Column.append {} (chart.scan t)).Traces g (input.length + 1) [] todo ∧
          Backing g (input ++ [t]) (behind chart t).earlier before := by
  obtain ⟨stems, htraces, hnodup, hmem⟩ := hcolumns _ _ (hindex ▸ column?_index chart)
  -- the columns before the new one are those of the old chart, its last one included
  obtain ⟨before, hback⟩ : ∃ before : Nat → List Stem,
      Backing g (input ++ [t]) (behind chart t).earlier before := by
    refine exists_backing fun m column hm => ?_
    obtain ⟨hle, hcolumn⟩ := column?_of_earlier_behind hm
    exact (hcolumns m column hcolumn).append (by omega) [t]
  refine ⟨before, scanned t stems, ?_, ?_, hback⟩
  · refine closing_scanned before (by simp) hnodup fun s => ?_
    rw [hmem, Stem.charted_append (Nat.le_refl _)]
  · rw [← hindex] at htraces hmem ⊢
    exact traces_scan htraces fun s hs => ((hmem s).mp hs).derived

/-- **A further column is faithful** if those before it are. -/
theorem faithful_shift (hindex : chart.index = input.length)
    (hcolumns : ∀ i column, chart.column? i = some column → column.Faithful g input i)
    (h : chart.shift g fuel t = some next) :
    next.head.Faithful g (input ++ [t]) (input.length + 1) := by
  obtain ⟨head, hclose, rfl⟩ := Option.map_eq_some_iff.mp h
  obtain ⟨before, todo, hclosing, htraces, hback⟩ := exists_closing_scan hindex hcolumns t
  refine faithful_of_closeFrom hclosing htraces hback ?_ hclose
  rw [size_earlier, ← hindex]
  rfl

/-- **All columns of a chart are faithful.** -/
theorem Reads.faithful (h : Reads g input chart) :
    ∀ i column, chart.column? i = some column → column.Faithful g input i := by
  induction h with
  | @initial fuel chart h =>
    intro i column hcolumn
    have hindex := index_initial h
    obtain ⟨rfl, rfl⟩ := eq_head_of_column? (by omega) hcolumn
    rw [hindex]
    exact faithful_initial h
  | @shift fuel input t chart next hchart h ih =>
    intro i column hcolumn
    have hindex := hchart.index_eq
    rcases cases_of_column? (older_close h) hcolumn with ⟨hle, hbefore⟩ | ⟨rfl, rfl⟩
    · exact (ih i column hbefore).append (by omega) [t]
    · rw [index_shift h, hindex]
      exact faithful_shift hindex ih h

/-- The last column of a chart is faithful. -/
theorem Reads.faithful_head (h : Reads g input chart) : chart.head.Faithful g input input.length :=
  h.faithful _ _ (h.index_eq ▸ column?_index chart)

/-- **A column 0 that does not close** comes to hold more charted stems than the visits that were
allowed. -/
theorem exists_of_not_initial (h : Chart.initial g fuel = none) :
    ∃ stems : List Stem, stems.Nodup ∧ (∀ s ∈ stems, s.Charted g [] 0) ∧ fuel < stems.length := by
  have hclose : Column.closeFrom g (seed g).earlier fuel 0 (seed g).head = none :=
    Option.map_eq_none_iff.mp h
  obtain ⟨done, todo, hclosing, hlt⟩ :=
    (closing_seed g [] _).exists_of_not_closeFrom (traces_seed g) (backing_empty g []) rfl hclose
  refine ⟨done ++ todo, hclosing.nodup, hclosing.charted, ?_⟩
  rwa [List.length_nil, Nat.zero_add] at hlt

end Chart

end Earley
