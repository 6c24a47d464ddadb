import Earley.Chart.Trail
import Earley.Proofs.Chart.Orderly

/-!
# The record of a chart

An item does not say which derivation it stands for: only the values of its children are left, and
the names of those without input. So a record is kept beside the chart. It has an entry for each
item, the stem that the item has come from, and it is written as the chart is built: what a visit
adds to a column it adds to the record, from the entries of the items that it puts together. All
that is looked up for this are the items and the lists of the chart.

The entries that a visit writes are the news of the stem that is visited. So the record of a column
has the charted stems, each once, in the order of their items.

## Main definitions

* `Column.recordVisit`, `Column.recordClose`: the entries of a visit, and of all visits
* `Chart.Recorded`: the record of a chart
* `Filed`: the records of the earlier columns
* `Chart.Chronicle`: a record that has the stem of every item

## Main results

* `Column.Traces.recordVisit_eq`: what a visit writes are the news of the stem
* `Closing.recordClose`: the record of a column that closes
* `Chart.Recorded.exists_chronicle`: every record has the stems of the items
* `Chart.Grown.exists_recorded`: every chart of a session has a record
-/

namespace Earley

namespace Column

variable (g : Grammar) (earlier : Array Column) (before : Nat → List Stem)

/-- The entries of a record at the given places. -/
def entriesAt (record : List Stem) (places : List Nat) : List Stem :=
  places.filterMap fun i => record[i]?

/-- The entries of the items that wait for a finished one: in the earlier column to which that goes
back, or else in the present one. -/
def entriesWaiting (column : Column) (record : List Stem) (item : Item) : List Stem :=
  match item.home with
  | some m => entriesAt (before m) ((earlier[m]?.getD {}).wanted.get item.name)
  | none => entriesAt record (column.wanted.get item.name)

/-- **The entries of the items that a visit adds**, given those of the earlier columns and of the
items so far. A finished item has moved others over it if the visit gives it a value. -/
def recordVisit (column : Column) (i : Nat) (record : List Stem) : List Stem :=
  match column.items[i]?, record[i]? with
  | some item, some s =>
    match item.next? with
    | none =>
      if ((column.visit g earlier i).items[i]?.bind (·.outcome.value?)).isSome then
        (column.entriesWaiting earlier before record item).reverse.map (·.push s.tree)
      else
        []
    | some (.nonterminal name) =>
      if column.wanted.contains name then
        (entriesAt record (column.empties.get name)).map fun d => s.push d.tree
      else
        Stem.alternatives g earlier.size name
    | some _ => []
  | _, _ => []

/-- **The record of a column**, written from place `i` on while the column is closed. -/
def recordClose : (fuel i : Nat) → Column → List Stem → List Stem
  | 0, _, _, record => record
  | fuel + 1, i, column, record =>
    if i < column.size then
      recordClose fuel (i + 1) (column.visit g earlier i)
        (record ++ column.recordVisit g earlier before i record)
    else
      record

end Column

namespace Chart

/-- The entries of the items moved over a token, from the latest back. -/
def recordScan (chart : Chart) (record : List Stem) (t : Token) : List Stem :=
  chart.head.scannable.toList.reverse.filterMap fun i =>
    match chart.head.items[i]?, record[i]? with
    | some item, some w =>
      if item.next?.any (·.accepts t) then some (w.push (.leaf t)) else none
    | _, _ => none

/-- **The record of a chart**: the records of its columns, from column 0 on. -/
inductive Recorded (g : Grammar) : Chart → List (List Stem) → Prop
  | initial {fuel : Nat} {chart : Chart} (h : Chart.initial g fuel = some chart) :
      Recorded g chart
        [Column.recordClose g #[] (fun _ => []) fuel 0 (seed g).head
          (Stem.alternatives g 0 g.start)]
  | shift {fuel : Nat} {t : Token} {chart next : Chart} {records : List (List Stem)}
      (hchart : Recorded g chart records) (h : chart.shift g fuel t = some next) :
      Recorded g next
        (records ++ [Column.recordClose g (behind chart t).earlier (records.getD · []) fuel 0
          (behind chart t).head (chart.recordScan (records.getD chart.index []) t)])
  | blank {chart : Chart} {records : List (List Stem)} (hchart : Recorded g chart records) :
      Recorded g chart.blank (records ++ [[]])

/-- The entry for the item at a place. -/
def stem? (records : List (List Stem)) (place : Place) : Option Stem :=
  records[place.column]?.bind fun record => record[place.entry]?

end Chart

/-! ## The record of a column -/

/-- **The records of the earlier columns** have the stems that these have visited. -/
def Filed (g : Grammar) (earlier : Array Column) (before : Nat → List Stem) : Prop :=
  ∀ (m : Nat) (home : Column), earlier[m]? = some home → home.Traces g m (before m) []

namespace Column.Traces

variable {g : Grammar} {input : List Token} {earlier : Array Column} {before : Nat → List Stem}
  {k : Nat} {done todo rest : List Stem} {s : Stem} {column : Column}

/-- The entries at the places of the visited stems of a kind are these stems. -/
theorem entriesAt_findIdxs (p : Stem → Bool) (done todo : List Stem) :
    Column.entriesAt (done ++ todo) (done.findIdxs p) = done.filter p := by
  have hentries := Column.filterMap_findIdxs p id done todo
  rwa [List.map_id, List.map_id] at hentries

/-- **The entries of the items that wait for a finished one** are the stems that wait for its stem. -/
theorem entriesWaiting_eq (h : column.Traces g k done todo) (hfiled : Filed g earlier before)
    (hk : earlier.size = k) (ho : s.origin ≤ k) :
    column.entriesWaiting earlier before (done ++ todo) (s.item k) =
      (Stem.since before k done s.origin).filter (·.wants s.name) := by
  unfold entriesWaiting Stem.since
  by_cases heq : s.origin = k
  · have hhome : (s.item k).home = none := Stem.home?_eq_none_iff.mpr heq
    rw [hhome, if_pos heq]
    dsimp only
    rw [h.wanted, entriesAt_findIdxs]
    rfl
  · have hlt : s.origin < earlier.size := by omega
    have hhome : (s.item k).home = some s.origin := Stem.home?_of_ne heq
    have hcolumn := Array.getElem?_eq_getElem hlt
    have hplaces := (hfiled _ _ hcolumn).wanted s.name
    have hentries := entriesAt_findIdxs (·.wants s.name) (before s.origin) []
    rw [List.append_nil] at hentries
    rw [hhome, if_neg heq]
    dsimp only
    rw [hcolumn, Option.getD_some]
    exact (congrArg _ hplaces).trans hentries

/-- **What a visit writes are the news of the stem** that is visited. -/
theorem recordVisit_eq (h : column.Traces g k done (s :: rest))
    (hback : Backing g input earlier before)
    (hfiled : Filed g earlier before)
    (hk : earlier.size = k) (hdone : ∀ w ∈ done, w.Derived g input k)
    (hs : s.Derived g input k) :
    column.recordVisit g earlier before done.length (done ++ s :: rest) =
      Stem.news g before k done s := by
  have hentry : (done ++ s :: rest)[done.length]? = some s := by
    rw [List.getElem?_append_right (Nat.le_refl _), Nat.sub_self, List.getElem?_cons_zero]
  unfold recordVisit Stem.news
  simp only [h.getElem?, hentry, Stem.next?_item]
  cases hnext : s.next? with
  | none =>
    -- the visit leaves the settled item of the stem behind
    have hvisit := h.visit hback hk hdone hs
    have hsettled : (column.visit g earlier done.length).items[done.length]? =
        some (s.settled k) := by
      rw [← Array.getElem?_toList, hvisit.items, List.map_append, List.append_assoc,
        List.getElem?_append_right (by simp), List.length_map, Nat.sub_self]
      rfl
    have houtcome : (s.settled k).outcome = s.outcome k := rfl
    have hwaiting := h.entriesWaiting_eq hfiled hk hs.origin_le
    simp only [hsettled, Option.bind_some, houtcome]
    rw [← hwaiting]
  | some sym =>
    cases sym with
    | nonterminal name =>
      simp only [h.known, h.empties, entriesAt_findIdxs, hk]
    | _ => rfl

end Column.Traces

namespace Closing

variable {g : Grammar} {input : List Token} {earlier : Array Column} {before : Nat → List Stem}
  {k fuel : Nat} {done todo : List Stem} {column closed : Column}

/-- **The record of a column that closes** has the stems that the column holds. -/
theorem recordClose (h : Closing g input before k done todo) (ht : column.Traces g k done todo)
    (hback : Backing g input earlier before)
    (hfiled : Filed g earlier before)
    (hk : earlier.size = k)
    (hclose : Column.closeFrom g earlier fuel done.length column = some closed) :
    Closing g input before k
        (column.recordClose g earlier before fuel done.length (done ++ todo)) [] ∧
      closed.Traces g k
        (column.recordClose g earlier before fuel done.length (done ++ todo)) [] := by
  induction fuel generalizing done todo column with
  | zero =>
    cases todo with
    | nil =>
      rw [ht.closeFrom_nil] at hclose
      obtain rfl := Option.some.inj hclose
      rw [Column.recordClose, List.append_nil]
      exact ⟨h, ht⟩
    | cons s rest =>
      rw [ht.closeFrom_zero] at hclose
      exact nomatch hclose
  | succ fuel ih =>
    cases todo with
    | nil =>
      rw [ht.closeFrom_nil] at hclose
      obtain rfl := Option.some.inj hclose
      have hend : ¬ done.length < column.size := by
        rw [ht.size]
        exact Nat.lt_irrefl _
      rw [Column.recordClose, if_neg hend, List.append_nil]
      exact ⟨h, ht⟩
    | cons s rest =>
      have hdone : ∀ w ∈ done, w.Derived g input k :=
        fun _ hw => (h.charted_of_mem_done hw).derived
      have hentries := ht.recordVisit_eq hback hfiled hk hdone h.charted_visited.derived
      have hrecord : done ++ s :: rest ++ Stem.news g before k done s =
          done ++ [s] ++ (rest ++ Stem.news g before k done s) := by simp
      have hlength : done.length + 1 = (done ++ [s]).length := by simp
      rw [ht.closeFrom_succ] at hclose
      rw [Column.recordClose, if_pos ht.length_lt_size, hentries, hrecord, hlength]
      exact ih (h.visit hback hk) (h.traces_visit ht hback hk) hclose

end Closing

/-! ## The record of a chart -/

namespace Chart

variable {g : Grammar} {input : List Token} {chart next : Chart} {records : List (List Stem)}
  {column : Column} {k fuel : Nat} {t : Token}

/-- **A record has the stem of every item** of a chart behind some input. Behind the input there are
empty columns at most, and one of them is the last column. -/
structure Chronicle (g : Grammar) (input : List Token) (chart : Chart)
    (records : List (List Stem)) : Prop where
  length_eq : records.length = chart.index + 1
  length_le : input.length ≤ chart.index
  current : chart.index = input.length ∨ chart.head = {}
  traces : ∀ k column, chart.column? k = some column → column.Traces g k (records.getD k []) []
  nodup : ∀ k ≤ chart.index, (records.getD k []).Nodup
  charted : ∀ k ≤ chart.index, ∀ s, s ∈ records.getD k [] ↔ s.Charted g input k

/-- No stem is charted behind the input. -/
theorem not_charted {s : Stem} (hk : input.length < k) : ¬ s.Charted g input k := by
  intro h
  have hle := h.derived.le_length
  omega

/-- An empty column has visited no stems. -/
theorem traces_empty (g : Grammar) (hk : 0 < k) : Column.Traces g k [] [] {} where
  items := rfl
  wanted := fun _ => rfl
  known := by
    intro name
    have hne : k ≠ 0 := Nat.ne_of_gt hk
    simp [Stem.Known, Register.contains, hne]
  scannable := rfl
  empties := fun _ => rfl

/-- The records of a chart with a further column. -/
theorem getD_concat {record : List Stem} (hlength : records.length = chart.index + 1) (k : Nat) :
    (records ++ [record]).getD k [] =
      if k = chart.index + 1 then record else records.getD k [] := by
  rw [List.getD_eq_getElem?_getD, List.getElem?_append, List.getD_eq_getElem?_getD]
  split
  · next hk => rw [if_neg (by omega)]
  · next hk =>
    by_cases heq : k = chart.index + 1
    · simp [heq, hlength]
    · have hnone : records[k]? = none := List.getElem?_eq_none_iff.mpr (by omega)
      have hlast : [record][k - records.length]? = none := by
        rw [List.getElem?_eq_none_iff, List.length_singleton]
        omega
      rw [if_neg heq, hnone, hlast]

/-- **What a token writes are the stems that are moved over it.** -/
theorem recordScan_eq {stems : List Stem} (h : chart.head.Traces g k stems []) (t : Token) :
    chart.recordScan stems t = scanned t stems := by
  have hentries := Column.Traces.entriesAt_findIdxs Stem.scans stems []
  rw [List.append_nil, Column.entriesAt] at hentries
  unfold recordScan scanned
  rw [h.scannable, ← hentries, ← List.filterMap_reverse, List.filterMap_filterMap]
  -- an item and its entry look at the same symbol
  apply List.filterMap_congr
  intro i _
  rw [h.getElem?_items]
  cases stems[i]? <;> rfl

/-- **The record of column 0.** -/
theorem chronicle_initial (h : Chart.initial g fuel = some chart) :
    Chronicle g [] chart
      [Column.recordClose g #[] (fun _ => []) fuel 0 (seed g).head
        (Stem.alternatives g 0 g.start)] := by
  have hindex := index_initial h
  obtain ⟨head, hclose, rfl⟩ := Option.map_eq_some_iff.mp h
  have hback := backing_empty g []
  have hfiled : Filed g #[] fun _ => [] := by
    intro m home hhome
    exact nomatch hhome
  obtain ⟨hclosing, htraces⟩ :=
    (closing_seed g [] _).recordClose (traces_seed g) hback hfiled rfl hclose
  rw [List.nil_append] at hclosing htraces
  refine ⟨by rw [hindex]; rfl, Nat.zero_le _, .inl hindex, ?_, ?_, ?_⟩
  · intro k column hcolumn
    obtain ⟨rfl, rfl⟩ := eq_head_of_column? (by omega) hcolumn
    rw [hindex]
    exact htraces
  · intro k hk
    obtain rfl : k = 0 := by omega
    exact (List.nodup_append.mp hclosing.nodup).1
  · intro k hk
    obtain rfl : k = 0 := by omega
    exact hclosing.mem_iff_charted hback rfl

namespace Chronicle

/-- **A further column goes on with a record** by the stems that are charted there, if nothing
changes in the columns before it. -/
theorem extend {longer : List Token} {record : List Stem} (h : Chronicle g input chart records)
    (holder : next.older = chart.head :: chart.older)
    (hcharted : ∀ k ≤ chart.index, ∀ s, Stem.Charted g longer k s ↔ Stem.Charted g input k s)
    (hle : longer.length ≤ next.index) (hcurrent : next.index = longer.length ∨ next.head = {})
    (htraces : next.head.Traces g next.index record []) (hnodup : record.Nodup)
    (hrecord : ∀ s, s ∈ record ↔ s.Charted g longer next.index) :
    Chronicle g longer next (records ++ [record]) := by
  have hindex : next.index = chart.index + 1 := by simp [index, holder]
  have hgetD : ∀ k, (records ++ [record]).getD k [] =
      if k = next.index then record else records.getD k [] := by
    intro k
    rw [getD_concat h.length_eq, hindex]
  have hold : ∀ k ≤ chart.index, (records ++ [record]).getD k [] = records.getD k [] := by
    intro k hk
    rw [hgetD, if_neg (by omega)]
  have hlast : (records ++ [record]).getD next.index [] = record := by rw [hgetD, if_pos rfl]
  refine ⟨?_, hle, hcurrent, ?_, ?_, ?_⟩
  · rw [List.length_append, h.length_eq, hindex, List.length_singleton]
  · intro k column hcolumn
    rcases cases_of_column? holder hcolumn with ⟨hk, hbefore⟩ | ⟨rfl, rfl⟩
    · rw [hold k hk]
      exact h.traces k column hbefore
    · rw [hlast]
      exact htraces
  · intro k hk
    rcases Nat.lt_or_eq_of_le hk with hk | rfl
    · rw [hold k (by omega)]
      exact h.nodup k (by omega)
    · rw [hlast]
      exact hnodup
  · intro k hk s
    rcases Nat.lt_or_eq_of_le hk with hk | rfl
    · rw [hold k (by omega), h.charted k (by omega), hcharted k (by omega)]
    · rw [hlast, hrecord]

/-- An empty column has no entries. -/
theorem blank (h : Chronicle g input chart records) :
    Chronicle g input chart.blank (records ++ [[]]) := by
  have hle := h.length_le
  have hindex : chart.blank.index = chart.index + 1 := rfl
  refine h.extend rfl (fun _ _ _ => Iff.rfl) (by omega) (.inr rfl) ?_ List.nodup_nil ?_
  · exact traces_empty g (by omega)
  · intro s
    exact iff_of_false List.not_mem_nil (not_charted (by omega))

/-- **A column behind a token** has the record that is written while it is closed. -/
theorem shift (h : Chronicle g input chart records) (hcurrent : chart.index = input.length)
    (hshift : chart.shift g fuel t = some next) :
    Chronicle g (input ++ [t]) next
      (records ++ [Column.recordClose g (behind chart t).earlier (records.getD · []) fuel 0
        (behind chart t).head (chart.recordScan (records.getD chart.index []) t)]) := by
  have hindex := index_shift hshift
  have holder := older_close hshift
  have hcharted : ∀ k ≤ chart.index, ∀ s,
      Stem.Charted g (input ++ [t]) k s ↔ Stem.Charted g input k s := by
    intro k hk s
    exact Stem.charted_append (by omega)
  obtain ⟨head, hclose, rfl⟩ := Option.map_eq_some_iff.mp hshift
  have hfiled : Filed g (behind chart t).earlier (records.getD · []) := by
    intro m home hhome
    exact h.traces m home (column?_of_earlier_behind hhome).2
  have hsize : (behind chart t).earlier.size = chart.index + 1 := size_earlier _
  have hback : Backing g (input ++ [t]) (behind chart t).earlier (records.getD · []) := by
    refine ⟨?_, ?_, ?_⟩
    · intro m home name hhome
      exact (hfiled m home hhome).waiting name
    · intro m hm s
      rw [h.charted m (by omega), hcharted m (by omega)]
    · intro m hm
      exact h.nodup m (by omega)
  -- closing begins with the stems that the token is scanned into
  have hhead := h.traces _ _ (column?_index chart)
  have hstems : ∀ s, s ∈ records.getD chart.index [] ↔
      s.Charted g (input ++ [t]) chart.index := by
    intro s
    rw [h.charted _ (Nat.le_refl _), hcharted _ (Nat.le_refl _)]
  have hbegin : (behind chart t).head.Traces g (chart.index + 1) []
      (scanned t (records.getD chart.index [])) :=
    traces_scan hhead fun s hs => ((hstems s).mp hs).derived
  have hclosing := closing_scanned (k := chart.index) (t := t) (records.getD · [])
    (by rw [hcurrent]; simp) (h.nodup _ (Nat.le_refl _)) hstems
  obtain ⟨hclosed, htraces⟩ := hclosing.recordClose hbegin hback hfiled hsize hclose
  rw [List.nil_append, ← recordScan_eq hhead] at hclosed htraces
  have hlength : (input ++ [t]).length = chart.index + 1 := by
    rw [List.length_append, List.length_singleton, hcurrent]
  refine h.extend holder hcharted (by omega) (.inl (by omega)) ?_
    (List.nodup_append.mp hclosed.nodup).1 ?_
  · rw [hindex]
    exact htraces
  · rw [hindex]
    exact hclosed.mem_iff_charted hback hsize

end Chronicle

/-- Behind an empty column there is nothing to write. -/
theorem recordClose_of_head_eq (h : chart.head = {}) (records : List (List Stem)) :
    Column.recordClose g (behind chart t).earlier (records.getD · []) fuel 0
      (behind chart t).head (chart.recordScan (records.getD chart.index []) t) = [] := by
  have hbegin : (behind chart t).head = {} := by
    simp [behind, scan, h, Column.itemsAt, Column.append]
  have hscan : chart.recordScan (records.getD chart.index []) t = [] := by
    simp [recordScan, h]
  rw [hbegin, hscan]
  cases fuel <;> rfl

/-- **Every record has the stem of every item.** -/
theorem Recorded.exists_chronicle (h : Recorded g chart records) :
    ∃ input, Chronicle g input chart records := by
  induction h with
  | initial h => exact ⟨[], chronicle_initial h⟩
  | @shift fuel t chart next records _ h ih =>
    obtain ⟨input, hrecords⟩ := ih
    rcases hrecords.current with hcurrent | hempty
    · exact ⟨input ++ [t], hrecords.shift hcurrent h⟩
    · -- the column is empty, and so is the next one
      rw [shift_of_head_eq hempty] at h
      obtain rfl := Option.some.inj h
      rw [recordClose_of_head_eq hempty]
      exact ⟨input, hrecords.blank⟩
  | blank _ ih =>
    obtain ⟨input, hrecords⟩ := ih
    exact ⟨input, hrecords.blank⟩

/-- **Every chart of a session has a record.** -/
theorem Grown.exists_recorded (h : Grown g chart) : ∃ records, Recorded g chart records := by
  induction h with
  | reads h =>
    induction h with
    | initial h => exact ⟨_, .initial h⟩
    | shift _ h ih =>
      obtain ⟨records, hrecords⟩ := ih
      exact ⟨_, hrecords.shift h⟩
  | blank _ ih =>
    obtain ⟨records, hrecords⟩ := ih
    exact ⟨_, hrecords.blank⟩

end Chart

end Earley
