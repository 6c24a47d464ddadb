import Earley.Proofs.Chart.Reading
import Earley.Proofs.Chart.Visiting

/-!
# What a chart tells of its input

Closing a column keeps the items that are there, with what they have parsed. So a column stays empty
if it begins empty, and then nothing is noted in it at all. Any other column behind a token begins
with an item that was moved over the token and has kept it. Therefore a chart tells its input as far
as its columns are not empty.

## Main results

* `Chart.isEmpty_of_shift_iff`: the column behind a token is empty if no item waits for that
* `Chart.cases_of_shift`: the column behind a token is empty, or its first item has kept the token
* `Chart.Reads.unique`: an input has one chart
* `Chart.Reads.concat_inj`: a chart that does not end with an empty column tells its last token
-/

namespace Earley

namespace Chart

variable {g : Grammar} {fuel fuel' : Nat} {chart chart' next : Chart} {t t' : Token}
  {input input' : List Token}

/-! ## One column -/

/-- If no item waits for a token, the next column is empty. -/
theorem shift_of_scan_eq_nil (h : chart.scan t = []) (g : Grammar) (fuel : Nat) :
    chart.shift g fuel t = some chart.blank := by
  have hbegin : Column.append {} (chart.scan t) = {} := by simp [h, Column.append]
  -- there is nothing to visit
  have hclosed : ∀ earlier, Column.closeFrom g earlier fuel 0 {} = some {} := by
    intro earlier
    cases fuel <;> rfl
  rw [shift, hbegin, close, hclosed]
  rfl

/-- Behind an empty column, the next one is empty too. -/
theorem shift_of_head_eq (h : chart.head = {}) (fuel : Nat) (t : Token) :
    chart.shift g fuel t = some chart.blank :=
  shift_of_scan_eq_nil (by simp [scan, h, Column.itemsAt]) g fuel

/-- An item that is moved over a token has parsed it last. -/
theorem parsed_of_mem_scan {item : Item} (h : item ∈ chart.scan t) :
    item.parsed.head? = some (.token t) := by
  obtain ⟨left, -, hleft⟩ := List.mem_filterMap.mp h
  split at hleft
  · obtain rfl := Option.some.inj hleft
    rfl
  · exact nomatch hleft

/-- If an item waits for a token, the next column begins with one that has kept it. -/
theorem exists_first_of_shift (h : chart.shift g fuel t = some next) (hscan : chart.scan t ≠ []) :
    ∃ first, next.head.items[0]? = some first ∧ first.parsed.head? = some (.token t) := by
  obtain ⟨item, rest, hscan⟩ := List.exists_cons_of_ne_nil hscan
  obtain ⟨head, hhead, rfl⟩ := Option.map_eq_some_iff.mp h
  have hbegin : (Column.append {} (chart.scan t)).items[0]? = some item := by
    simp [Column.append, hscan]
  obtain ⟨first, hfirst, hkept⟩ := Column.exists_of_closeFrom hbegin hhead
  have hparsed : first.parsed = item.parsed := (congrArg Item.parsed hkept :)
  refine ⟨first, hfirst, ?_⟩
  rw [hparsed]
  exact parsed_of_mem_scan (hscan ▸ List.mem_cons_self)

/-- **The column behind a token** is empty, or its first item has kept the token. -/
theorem cases_of_shift (h : chart.shift g fuel t = some next) :
    next = chart.blank ∨
      ∃ first, next.head.items[0]? = some first ∧ first.parsed.head? = some (.token t) := by
  by_cases hscan : chart.scan t = []
  · exact .inl (Option.some.inj (h.symm.trans (shift_of_scan_eq_nil hscan g fuel)))
  · exact .inr (exists_first_of_shift h hscan)

/-- **The column behind a token is empty** exactly if no item waits for such a token. -/
theorem isEmpty_of_shift_iff (h : chart.shift g fuel t = some next) :
    next.head.isEmpty = true ↔ chart.scan t = [] := by
  constructor
  · intro hempty
    by_contra hscan
    obtain ⟨first, hfirst, -⟩ := exists_first_of_shift h hscan
    have hnone : next.head.items = #[] := by simpa [Column.isEmpty] using hempty
    simp [hnone] at hfirst
  · intro hscan
    obtain rfl := Option.some.inj (h.symm.trans (shift_of_scan_eq_nil hscan g fuel))
    rfl

/-- A column without items is blank. -/
theorem eq_blank_of_shift (h : chart.shift g fuel t = some next)
    (hempty : next.head.isEmpty = true) : next = chart.blank :=
  Option.some.inj <| h.symm.trans <|
    shift_of_scan_eq_nil ((isEmpty_of_shift_iff h).mp hempty) g fuel

/-- A column with items tells its token. -/
theorem token_eq_of_shift (h : chart.shift g fuel t = some next)
    (h' : chart'.shift g fuel' t' = some next) (hfull : next.head.isEmpty = false) : t = t' := by
  have hblank : ∀ c : Chart, next ≠ c.blank := by
    rintro c rfl
    exact Bool.noConfusion hfull
  obtain ⟨first, hfirst, htoken⟩ := (cases_of_shift h).resolve_left (hblank chart)
  obtain ⟨first', hfirst', htoken'⟩ := (cases_of_shift h').resolve_left (hblank chart')
  obtain rfl := Option.some.inj (hfirst.symm.trans hfirst')
  exact Value.token.inj (Option.some.inj (htoken.symm.trans htoken'))

/-- A chart tells the one that it was shifted from. -/
theorem eq_of_shift (h : chart.shift g fuel t = some next)
    (h' : chart'.shift g fuel' t' = some next) : chart = chart' := by
  have holder : chart.head :: chart.older = chart'.head :: chart'.older :=
    (older_close h).symm.trans (older_close h')
  obtain ⟨head, older⟩ := chart
  obtain ⟨head', older'⟩ := chart'
  obtain ⟨rfl, rfl⟩ := List.cons.inj holder
  rfl

/-! ## Inputs -/

/-- Before any input there is column 0. -/
theorem Reads.of_nil (h : Reads g [] chart) : ∃ fuel, Chart.initial g fuel = some chart := by
  generalize hinput : ([] : List Token) = input at h
  cases h with
  | initial h => exact ⟨_, h⟩
  | shift => exact absurd hinput.symm (by simp)

/-- Behind the last token stands the column that it leads to. -/
theorem Reads.of_concat (h : Reads g (input ++ [t]) chart) :
    ∃ before fuel, Reads g input before ∧ before.shift g fuel t = some chart := by
  generalize hinput : input ++ [t] = whole at h
  cases h with
  | initial => exact absurd hinput (by simp)
  | shift hbefore h =>
    obtain ⟨rfl, htoken⟩ := List.append_inj' hinput rfl
    obtain rfl := List.singleton_inj.mp htoken
    exact ⟨_, _, hbefore, h⟩

/-- **An input has one chart.** -/
theorem Reads.unique (h : Reads g input chart) (h' : Reads g input chart') : chart = chart' := by
  -- whatever the bounds were, the charts close under the larger one
  have hclose : ∀ {start closed closed' : Chart} {bound bound' : Nat},
      start.close g bound = some closed → start.close g bound' = some closed' →
        closed = closed' := by
    intro start closed closed' bound bound' hc hc'
    have hmore := close_mono hc (Nat.le_max_left bound bound')
    have hmore' := close_mono hc' (Nat.le_max_right bound bound')
    exact Option.some.inj (hmore.symm.trans hmore')
  induction h generalizing chart' with
  | initial h =>
    obtain ⟨bound, h'⟩ := h'.of_nil
    exact hclose h h'
  | shift _ h ih =>
    obtain ⟨before, bound, hbefore, h'⟩ := h'.of_concat
    obtain rfl := ih hbefore
    exact hclose h h'

/-- **A column with items tells its token**, and the chart the one before. -/
theorem Reads.concat_inj (h : Reads g (input ++ [t]) chart) (h' : Reads g (input' ++ [t']) chart)
    (hfull : chart.head.isEmpty = false) :
    t = t' ∧ ∃ before, Reads g input before ∧ Reads g input' before := by
  obtain ⟨before, fuel, hbefore, hshift⟩ := h.of_concat
  obtain ⟨before', fuel', hbefore', hshift'⟩ := h'.of_concat
  obtain rfl := eq_of_shift hshift hshift'
  exact ⟨token_eq_of_shift hshift hshift' hfull, before, hbefore, hbefore'⟩

end Chart

end Earley
