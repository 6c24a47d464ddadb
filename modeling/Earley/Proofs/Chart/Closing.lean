import Earley.Proofs.Chart.Trace

/-!
# Closing a column

While a column is closed, the stems that it holds are exactly those that one step leads to from the
stems visited so far, each once. A pair of a waiting and a finished stem is put together when the
later of the two is visited, whichever that is, and never again. When nothing is left to visit, the
column is closed under steps, so it holds all charted stems.

## Main definitions

* `Stem.Follows`: the stems that one step leads to from the visited ones
* `Closing`: the invariant of closing a column

## Main results

* `Stem.follows_concat`: what the visit to one more stem adds
* `Closing.visit`: a visit keeps the invariant
* `Closing.exists_of_closeFrom`: a closed column has visited the stems that it holds
* `Closing.exists_of_not_closeFrom`: a column that does not close comes to hold as many stems as
  wanted
* `Closing.mem_iff_charted`: a closed column holds the charted stems
-/

namespace Earley

namespace Stem

section Follows

variable {g : Grammar} {input : List Token} {before : Nat → List Stem} {k : Nat}
  {done : List Stem} {s w d x : Stem} {name : String}

/-- The stems moved over the token in front of a column. -/
def Scanned (g : Grammar) (input : List Token) (k : Nat) (x : Stem) : Prop :=
  ∃ j w sym t, k = j + 1 ∧ Charted g input j w ∧ w.next? = some sym ∧ input[j]? = some t ∧
    sym.accepts t = true ∧ x = w.push (.leaf t)

/-- **The stems that one step leads to** from the stems visited so far. -/
inductive Follows (g : Grammar) (input : List Token) (before : Nat → List Stem) (k : Nat)
    (done : List Stem) : Stem → Prop
  | scan {x : Stem} (h : Scanned g input k x) : Follows g input before k done x
  | predict {name : String} {rule : Rule} {a : Nat} (hknown : Known g k done name)
      (hrule : (g.rulesFor name)[a]? = some rule) :
      Follows g input before k done (predicted rule a k)
  | complete {w d : Stem} {v : Value} (hd : d ∈ done) (hv : d.outcome k = .value v)
      (hw : w ∈ since before k done d.origin) (hwants : w.wants d.name = true) :
      Follows g input before k done (w.push d.tree)

theorem known_concat :
    Known g k (done ++ [s]) name ↔ Known g k done name ∨ s.wants name = true := by
  simp [Known, or_and_right, exists_or, or_assoc]

theorem mem_since_concat {origin : Nat} :
    w ∈ since before k (done ++ [s]) origin ↔
      w ∈ since before k done origin ∨ (origin = k ∧ w = s) := by
  unfold since
  by_cases h : origin = k
  · simp [h]
  · simp [h]

/-- What a visit to a stem finished with a value adds. -/
theorem mem_news_of_value {v : Value} (h : s.outcome k = .value v) :
    x ∈ news g before k done s ↔
      ∃ w ∈ since before k done s.origin, w.wants s.name = true ∧ x = w.push s.tree := by
  rw [news, (outcome_eq_value_iff.mp h).1]
  simp only [h, Outcome.value?, Option.isSome_some, if_true, List.mem_map, List.mem_reverse,
    List.mem_filter]
  refine exists_congr fun w => ?_
  rw [and_assoc, eq_comm (a := x)]

/-- What a visit to a stem adds that asks for a known name. -/
theorem mem_news_of_known (hs : s.wants name = true) (hknown : Known g k done name) :
    x ∈ news g before k done s ↔ ∃ d ∈ done, d.isEmptyOf k name = true ∧ x = s.push d.tree := by
  rw [news, wants_iff.mp hs]
  simp only [hknown, if_true, List.mem_map, List.mem_filter]
  refine exists_congr fun d => ?_
  rw [and_assoc, eq_comm (a := x)]

/-- What a visit to a stem adds that is the first to ask for a name. -/
theorem mem_news_of_not_known (hs : s.wants name = true) (hknown : ¬ Known g k done name) :
    x ∈ news g before k done s ↔
      ∃ rule a, (g.rulesFor name)[a]? = some rule ∧ x = predicted rule a k := by
  rw [news, wants_iff.mp hs]
  simp only [hknown, if_false]
  exact mem_alternatives

/-- The three kinds of visits that add stems. -/
theorem cases_of_mem_news (hx : x ∈ news g before k done s) :
    (∃ v, s.outcome k = .value v) ∨ ∃ name, s.wants name = true := by
  unfold news at hx
  split at hx
  · split at hx
    · next hsome =>
      obtain ⟨v, hv⟩ := Option.isSome_iff_exists.mp hsome
      exact .inl ⟨v, Outcome.value?_eq_some.mp hv⟩
    · exact absurd hx List.not_mem_nil
  · next name hnext => exact .inr ⟨name, wants_iff.mpr hnext⟩
  · exact absurd hx List.not_mem_nil

theorem Follows.mono (h : Follows g input before k done x) :
    Follows g input before k (done ++ [s]) x := by
  cases h with
  | scan h => exact .scan h
  | predict hknown hrule => exact .predict (known_concat.mpr (.inl hknown)) hrule
  | complete hd hv hw hwants =>
    exact .complete (List.mem_append_left _ hd) hv (mem_since_concat.mpr (.inl hw)) hwants

/-- A stem that follows and has moved over a finished stem comes from a visited one of its tree. -/
theorem Follows.of_push_tree (h : Follows g input before k done (w.push d.tree)) :
    ∃ d' ∈ done, d'.tree = d.tree ∧ w ∈ since before k done d'.origin := by
  generalize hpush : w.push d.tree = y at h
  cases h with
  | scan hscan =>
    obtain ⟨j, w', sym, t, -, -, -, -, -, rfl⟩ := hscan
    exact nomatch (push_inj hpush).2
  | predict => exact absurd hpush (push_ne_predicted _ _ _)
  | @complete w' d' v hd hv hw hwants =>
    obtain ⟨rfl, htree⟩ := push_inj hpush
    exact ⟨d', hd, htree.symm, hw⟩

/-- The name of a rule that follows at its beginning is asked for. -/
theorem Follows.of_predicted {rule : Rule} {a : Nat}
    (h : Follows g input before k done (predicted rule a k)) : Known g k done rule.name := by
  generalize hpred : predicted rule a k = y at h
  cases h with
  | scan hscan =>
    obtain ⟨j, w, sym, t, -, -, -, -, -, rfl⟩ := hscan
    exact absurd hpred.symm (push_ne_predicted _ _ _)
  | @predict name rule' a' hknown hrule =>
    obtain rfl : rule = rule' := congrArg Stem.rule hpred
    rwa [Grammar.name_of_rulesFor hrule]
  | complete => exact absurd hpred.symm (push_ne_predicted _ _ _)

/-- **What the visit to one more stem adds** to the stems that follow, if the finished stems without
input have names that were asked for. -/
theorem follows_concat (hnames : ∀ d ∈ done, d.origin = k → Known g k done d.name) :
    Follows g input before k (done ++ [s]) x ↔
      Follows g input before k done x ∨ x ∈ news g before k done s := by
  constructor
  · intro h
    cases h with
    | scan h => exact .inl (.scan h)
    | @predict name rule a hknown hrule =>
      -- a name is new only if the visited stem is the first to ask for it
      by_cases hold : Known g k done name
      · exact .inl (.predict hold hrule)
      · have hs := (known_concat.mp hknown).resolve_left hold
        exact .inr ((mem_news_of_not_known hs hold).mpr ⟨rule, a, hrule, rfl⟩)
    | @complete w d v hd hv hw hwants =>
      rcases List.mem_append.mp hd with hold | hnew
      · rcases mem_since_concat.mp hw with hw | ⟨ho, rfl⟩
        · exact .inl (.complete hold hv hw hwants)
        · -- the waiting stem is the later one
          refine .inr ((mem_news_of_known hwants (hnames d hold ho)).mpr ⟨d, hold, ?_, rfl⟩)
          exact isEmptyOf_iff.mpr ⟨ho, rfl, v, hv⟩
      · -- the finished stem is the later one
        obtain rfl := List.mem_singleton.mp hnew
        rcases mem_since_concat.mp hw with hw | ⟨-, rfl⟩
        · exact .inr ((mem_news_of_value hv).mpr ⟨w, hw, hwants, rfl⟩)
        · -- no stem is finished and waits for its own name at once
          rw [wants_of_finished (outcome_eq_value_iff.mp hv).1] at hwants
          exact absurd hwants Bool.false_ne_true
  · rintro (h | hx)
    · exact h.mono
    · rcases cases_of_mem_news hx with ⟨v, hv⟩ | ⟨name, hs⟩
      · obtain ⟨w, hw, hwants, rfl⟩ := (mem_news_of_value hv).mp hx
        exact .complete (List.mem_append_right _ (List.mem_singleton_self s)) hv
          (mem_since_concat.mpr (.inl hw)) hwants
      · by_cases hknown : Known g k done name
        · obtain ⟨d, hd, hempty, rfl⟩ := (mem_news_of_known hs hknown).mp hx
          obtain ⟨ho, rfl, v, hv⟩ := isEmptyOf_iff.mp hempty
          exact .complete (List.mem_append_left _ hd) hv (mem_since_concat.mpr (.inr ⟨ho, rfl⟩)) hs
        · obtain ⟨rule, a, hrule, rfl⟩ := (mem_news_of_not_known hs hknown).mp hx
          exact .predict (known_concat.mpr (.inr hs)) hrule

end Follows

end Stem

/-- **The invariant of closing column `k`**: the stems visited and those still to visit are the ones
that follow from the visited ones, each once. -/
structure Closing (g : Grammar) (input : List Token) (before : Nat → List Stem) (k : Nat)
    (done todo : List Stem) : Prop where
  nodup : (done ++ todo).Nodup
  mem_iff : ∀ s, s ∈ done ++ todo ↔ s.Follows g input before k done
  charted : ∀ s ∈ done ++ todo, s.Charted g input k
  known : ∀ s ∈ done ++ todo, s.origin = k → Stem.Known g k done s.name

namespace Closing

open Stem (Charted Follows Known Scanned news since)

variable {g : Grammar} {input : List Token} {earlier : Array Column} {before : Nat → List Stem}
  {k : Nat} {done todo rest : List Stem} {s w x : Stem}

theorem charted_of_mem_done (h : Closing g input before k done todo) (hmem : s ∈ done) :
    s.Charted g input k :=
  h.charted s (List.mem_append_left _ hmem)

/-- The stems in which a name is waited for since a column are charted there. -/
theorem charted_of_mem_since (h : Closing g input before k done todo)
    (hback : Backing g input earlier before) (hk : earlier.size = k) {origin : Nat}
    (ho : origin ≤ k) (hw : w ∈ since before k done origin) : w.Charted g input origin := by
  rcases Stem.mem_since.mp hw with ⟨heq, hw⟩ | ⟨hne, hw⟩
  · exact heq ▸ h.charted_of_mem_done hw
  · exact (hback.charted origin (by omega) w).mp hw

/-- The stems in which a name is waited for since a column are there once. -/
theorem nodup_since (h : Closing g input before k done todo)
    (hback : Backing g input earlier before) (hk : earlier.size = k) {origin : Nat}
    (ho : origin ≤ k) : (since before k done origin).Nodup := by
  unfold since
  split
  · exact (List.nodup_append.mp h.nodup).1
  · exact hback.nodup origin (by omega)

section Visit

variable (h : Closing g input before k done (s :: rest)) (hback : Backing g input earlier before)
  (hk : earlier.size = k)

include h

theorem charted_visited : s.Charted g input k :=
  h.charted s (List.mem_append_right _ List.mem_cons_self)

/-- The stem that is visited was not visited before. -/
theorem not_mem_done : s ∉ done := by
  intro hmem
  exact (List.nodup_append.mp h.nodup).2.2 s hmem s List.mem_cons_self rfl

include hback hk

/-- What a visit adds is charted. -/
theorem charted_news (hx : x ∈ news g before k done s) : x.Charted g input k := by
  have hs := h.charted_visited
  rcases Stem.cases_of_mem_news hx with ⟨v, hv⟩ | ⟨name, hwants⟩
  · obtain ⟨w, hw, hnext, rfl⟩ := (Stem.mem_news_of_value hv).mp hx
    have hw := h.charted_of_mem_since hback hk hs.derived.origin_le hw
    exact .complete hw (Stem.wants_iff.mp hnext) hs hv
  · by_cases hknown : Known g k done name
    · obtain ⟨d, hd, hempty, rfl⟩ := (Stem.mem_news_of_known hwants hknown).mp hx
      obtain ⟨rfl, rfl, v, hv⟩ := Stem.isEmptyOf_iff.mp hempty
      exact .complete hs (Stem.wants_iff.mp hwants) (h.charted_of_mem_done hd) hv
    · obtain ⟨rule, a, hrule, rfl⟩ := (Stem.mem_news_of_not_known hwants hknown).mp hx
      exact .predict hs (Stem.wants_iff.mp hwants) hrule

/-- What a visit adds and has taken no input has a name that is asked for. -/
theorem known_news (hx : x ∈ news g before k done s) (ho : x.origin = k) :
    Known g k (done ++ [s]) x.name := by
  rcases Stem.cases_of_mem_news hx with ⟨v, hv⟩ | ⟨name, hwants⟩
  · obtain ⟨w, hw, hnext, rfl⟩ := (Stem.mem_news_of_value hv).mp hx
    -- the stem that moves has taken no input, so it stands in this column
    have hs := h.charted_visited.derived.origin_le
    have hle := (h.charted_of_mem_since hback hk hs hw).derived.origin_le
    rcases Stem.mem_since.mp hw with ⟨-, hw⟩ | ⟨hne, -⟩
    · exact Stem.known_concat.mpr (.inl (h.known w (List.mem_append_left _ hw) ho))
    · rw [Stem.origin_push] at ho
      omega
  · by_cases hknown : Known g k done name
    · obtain ⟨d, -, -, rfl⟩ := (Stem.mem_news_of_known hwants hknown).mp hx
      exact Stem.known_concat.mpr
        (.inl (h.known s (List.mem_append_right _ List.mem_cons_self) ho))
    · obtain ⟨rule, a, hrule, rfl⟩ := (Stem.mem_news_of_not_known hwants hknown).mp hx
      refine Stem.known_concat.mpr (.inr ?_)
      rwa [show (Stem.predicted rule a k).name = name from Grammar.name_of_rulesFor hrule]

/-- A visit adds no stem twice. -/
theorem nodup_news : (news g before k done s).Nodup := by
  have hdone : done.Nodup := (List.nodup_append.mp h.nodup).1
  unfold news
  split
  · split
    · have hsince := h.nodup_since hback hk h.charted_visited.derived.origin_le
      refine List.Nodup.map ?_ (List.nodup_reverse.mpr (hsince.filter _))
      exact fun w w' heq => (Stem.push_inj heq).1
    · exact List.nodup_nil
  · next name hnext =>
    split
    · -- finished stems without input all begin in this column, so their trees tell them apart
      refine List.Nodup.map_on (fun d hd d' hd' heq => ?_) (hdone.filter _)
      have ho := (Stem.isEmptyOf_iff.mp (List.mem_filter.mp hd).2).1
      have ho' := (Stem.isEmptyOf_iff.mp (List.mem_filter.mp hd').2).1
      exact Stem.tree_inj (Stem.push_inj heq).2 (ho.trans ho'.symm)
    · exact Stem.nodup_alternatives g k name
  · exact List.nodup_nil

/-- **A visit adds no stem that is there already.** A pair of a waiting and a finished stem is put
together when the later of them is visited. -/
theorem not_follows_of_mem_news (hx : x ∈ news g before k done s) :
    ¬ x.Follows g input before k done := by
  have hs := h.charted_visited.derived
  intro hfollows
  rcases Stem.cases_of_mem_news hx with ⟨v, hv⟩ | ⟨name, hwants⟩
  · obtain ⟨w, hw, -, rfl⟩ := (Stem.mem_news_of_value hv).mp hx
    -- another finished stem of this tree would begin in the same column
    obtain ⟨d, hd, htree, hw'⟩ := hfollows.of_push_tree
    have hle := (h.charted_of_mem_done hd).derived.origin_le
    have hlen := (h.charted_of_mem_since hback hk hs.origin_le hw).derived.origin_add_length
    have hlen' := (h.charted_of_mem_since hback hk hle hw').derived.origin_add_length
    obtain rfl : d = s := Stem.tree_inj htree (hlen'.symm.trans hlen)
    exact h.not_mem_done hd
  · by_cases hknown : Known g k done name
    · obtain ⟨d, -, -, rfl⟩ := (Stem.mem_news_of_known hwants hknown).mp hx
      -- the visited stem would have been waiting already
      obtain ⟨d', hd', -, hs'⟩ := hfollows.of_push_tree
      have hle := (h.charted_of_mem_done hd').derived.origin_le
      have hlen' := (h.charted_of_mem_since hback hk hle hs').derived.origin_add_length
      have ho : d'.origin = k := hlen'.symm.trans hs.origin_add_length
      rcases Stem.mem_since.mp hs' with ⟨-, hs'⟩ | ⟨hne, -⟩
      · exact h.not_mem_done hs'
      · exact hne ho
    · obtain ⟨rule, a, hrule, rfl⟩ := (Stem.mem_news_of_not_known hwants hknown).mp hx
      exact hknown (Grammar.name_of_rulesFor hrule ▸ hfollows.of_predicted)

/-- **A visit keeps the invariant.** -/
theorem visit : Closing g input before k (done ++ [s]) (rest ++ news g before k done s) := by
  have hassoc : done ++ [s] ++ (rest ++ news g before k done s) =
      (done ++ s :: rest) ++ news g before k done s := by simp
  refine ⟨?_, ?_, ?_, ?_⟩
  · rw [hassoc, List.nodup_append]
    refine ⟨h.nodup, h.nodup_news hback hk, ?_⟩
    -- what is there follows from the visited stems, and the news do not
    rintro x hold y hnew rfl
    exact h.not_follows_of_mem_news hback hk hnew ((h.mem_iff x).mp hold)
  · intro x
    rw [hassoc, List.mem_append, h.mem_iff]
    refine (Stem.follows_concat ?_).symm
    intro d hd ho
    exact h.known d (List.mem_append_left _ hd) ho
  · intro x hx
    rw [hassoc] at hx
    rcases List.mem_append.mp hx with hold | hnew
    · exact h.charted x hold
    · exact h.charted_news hback hk hnew
  · intro x hx ho
    rw [hassoc] at hx
    rcases List.mem_append.mp hx with hold | hnew
    · exact Stem.known_concat.mpr (.inl (h.known x hold ho))
    · exact h.known_news hback hk hnew ho

end Visit

/-! ## Whole runs -/

variable {column closed : Column} {fuel : Nat}

/-- A visit keeps the invariant and the trace. -/
theorem traces_visit (h : Closing g input before k done (s :: rest))
    (ht : column.Traces g k done (s :: rest)) (hback : Backing g input earlier before)
    (hk : earlier.size = k) :
    (column.visit g earlier done.length).Traces g k (done ++ [s])
      (rest ++ news g before k done s) :=
  ht.visit hback hk (fun _ hw => (h.charted_of_mem_done hw).derived) h.charted_visited.derived

/-- **A column that closes** has visited the stems that it holds. -/
theorem exists_of_closeFrom (h : Closing g input before k done todo)
    (ht : column.Traces g k done todo) (hback : Backing g input earlier before)
    (hk : earlier.size = k)
    (hclose : Column.closeFrom g earlier fuel done.length column = some closed) :
    ∃ stems, Closing g input before k stems [] ∧ closed.Traces g k stems [] := by
  induction fuel generalizing done todo column with
  | zero =>
    cases todo with
    | nil =>
      rw [ht.closeFrom_nil] at hclose
      exact ⟨done, h, Option.some.inj hclose ▸ ht⟩
    | cons s rest =>
      rw [ht.closeFrom_zero] at hclose
      exact nomatch hclose
  | succ fuel ih =>
    cases todo with
    | nil =>
      rw [ht.closeFrom_nil] at hclose
      exact ⟨done, h, Option.some.inj hclose ▸ ht⟩
    | cons s rest =>
      rw [ht.closeFrom_succ] at hclose
      exact ih (h.visit hback hk) (h.traces_visit ht hback hk) hclose

/-- **A column that does not close** comes to hold more stems than the visits that were allowed. -/
theorem exists_of_not_closeFrom (h : Closing g input before k done todo)
    (ht : column.Traces g k done todo) (hback : Backing g input earlier before)
    (hk : earlier.size = k)
    (hclose : Column.closeFrom g earlier fuel done.length column = none) :
    ∃ done' todo', Closing g input before k done' todo' ∧
      done.length + fuel < (done' ++ todo').length := by
  induction fuel generalizing done todo column with
  | zero =>
    cases todo with
    | nil =>
      rw [ht.closeFrom_nil] at hclose
      exact nomatch hclose
    | cons s rest =>
      -- all visits are used up, and one more stem is there
      refine ⟨done, s :: rest, h, ?_⟩
      rw [List.length_append, List.length_cons]
      omega
  | succ fuel ih =>
    cases todo with
    | nil =>
      rw [ht.closeFrom_nil] at hclose
      exact nomatch hclose
    | cons s rest =>
      rw [ht.closeFrom_succ] at hclose
      obtain ⟨done', todo', hclosing, hlt⟩ :=
        ih (h.visit hback hk) (h.traces_visit ht hback hk) hclose
      refine ⟨done', todo', hclosing, ?_⟩
      rw [List.length_append, List.length_singleton] at hlt
      omega

/-- **A closed column holds the charted stems.** -/
theorem mem_iff_charted {stems : List Stem} (h : Closing g input before k stems [])
    (hback : Backing g input earlier before) (hk : earlier.size = k) (s : Stem) :
    s ∈ stems ↔ s.Charted g input k := by
  have hmem : ∀ s, s ∈ stems ↔ s.Follows g input before k stems := by
    simpa using h.mem_iff
  -- the steps within the column, by induction; the earlier columns hold all that they should
  have hall : ∀ j s, s.Charted g input j → j = k → s ∈ stems := by
    intro j s hs
    induction hs with
    | start hrule =>
      rintro rfl
      exact (hmem _).mpr (.predict (.inl ⟨rfl, rfl⟩) hrule)
    | @predict j w name rule a _ hnext hrule ih =>
      rintro rfl
      exact (hmem _).mpr (.predict (.inr ⟨w, ih rfl, Stem.wants_iff.mpr hnext⟩) hrule)
    | @scan j w sym t hw hnext htoken haccepts _ =>
      intro hj
      exact (hmem _).mpr (.scan ⟨j, w, sym, t, hj.symm, hw, hnext, htoken, haccepts, rfl⟩)
    | @complete j w d v hw hnext hd hvalue ihw ihd =>
      rintro rfl
      refine (hmem _).mpr (.complete (ihd rfl) hvalue ?_ (Stem.wants_iff.mpr hnext))
      by_cases ho : d.origin = j
      · exact Stem.mem_since.mpr (.inl ⟨ho, ihw ho⟩)
      · have hlt : d.origin < earlier.size := by
          have := hd.derived.origin_le
          omega
        exact Stem.mem_since.mpr (.inr ⟨ho, (hback.charted d.origin hlt w).mpr hw⟩)
  exact ⟨h.charted_of_mem_done, fun hs => hall k s hs rfl⟩

end Closing

end Earley
