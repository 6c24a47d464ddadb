import Earley.Chart.Closure
import Earley.Proofs.Chart.Charted
import Mathlib.Data.List.Nodup

/-!
# Traces of a column

While a column is closed, its items are those of a row of stems: the stems visited so far, and
behind them the stems still to visit. The lists that the column keeps beside its items are the
places of the visited stems that wait for a name, wait for a token, or are finished without input.

A visit moves one stem from the second part to the first and adds stems at the end. Which ones these
are is said by `Stem.news`, in terms of stems alone.

## Main definitions

* `Stem.Known`, `Stem.news`: the names asked for so far, and the stems that a visit adds
* `Column.Traces`: a column that has visited some stems and has others to visit
* `Backing`: the stems of the earlier columns

## Main results

* `Stem.item_push_leaf`, `Stem.item_push_tree`, `Stem.item_push_tree_of_lt`: the item of a stem that
  has moved is the moved item
* `Column.Traces.waiting`, `Column.Traces.map_finishedEmpty`: what the lists of a column hold
* `Column.Traces.moved_item`: what a finished item moves on
* `Column.Traces.visit`: a visit adds the news of the stem
-/

namespace Earley

theorem Outcome.value?_eq_some {o : Outcome} {v : Value} : o.value? = some v ↔ o = .value v := by
  cases o <;> simp [Outcome.value?]

namespace Stem

/-! ## Moved items -/

section Moved

variable {g : Grammar} {input : List Token} {k : Nat} {w d : Stem} {v : Value}

/-- **A stem that moves into a later column** goes back to where it begins: if that is where it has
stood, it gets this column to go back to, and else it keeps what it has. -/
theorem home?_push {m : Nat} {c : Tree} (hw : w.Derived g input m) (hm : m < k) :
    (w.push c).home? k = (w.home? m).or (some m) := by
  have ho : (w.push c).origin ≠ k := by
    have := hw.origin_le
    rw [origin_push]
    omega
  rw [home?_of_ne ho, origin_push]
  by_cases hwo : w.origin = m
  · rw [home?_eq_none_iff.mpr hwo, hwo]
    rfl
  · rw [home?_of_ne hwo]
    rfl

/-- **The item of a stem moved over a token** is the moved item. -/
theorem item_push_leaf {t : Token} (hw : w.Derived g input k) :
    (w.push (.leaf t)).item (k + 1) = (w.item k).shift k t := by
  obtain ⟨vs, hvs⟩ := hw.valued
  have ho : w.origin ≠ k + 1 := by
    have := hw.origin_le
    omega
  have hhome := home?_push (c := .leaf t) hw k.lt_succ_self
  unfold item Item.shift
  rw [hhome]
  simp [push, nulled, ho, Tree.values?_concat, hvs]

/-- The values of a stem moved over a finished stem. -/
theorem values?_push_tree (hw : w.Derived g input d.origin) (hvalue : d.outcome k = .value v) :
    Tree.values? w.origin (w.children ++ [d.tree]) =
      (Tree.values? w.origin w.children).map (· ++ [v]) := by
  obtain ⟨vs, hvs⟩ := hw.valued
  have hm : w.origin + (w.children.flatMap Tree.tokens).length = d.origin := hw.origin_add_length
  have hv : d.tree.value? d.origin = some v := (outcome_eq_value_iff.mp hvalue).2.2
  rw [Tree.values?_concat, hvs, hm, Option.bind_some, hv, Option.map_some, Option.map_some]

/-- **The item of a stem moved over a finished stem** that begins in the same column is the item moved
there. -/
theorem item_push_tree (hw : w.Derived g input k) (ho : d.origin = k)
    (hvalue : d.outcome k = .value v) :
    (w.push d.tree).item k = (w.item k).advance k (d.item k) v := by
  obtain ⟨vs, hvs⟩ := hw.valued
  have hparsed := values?_push_tree (ho ▸ hw) hvalue
  rw [hvs, Option.map_some] at hparsed
  -- names are kept only if the stem has taken no input, and then those of the finished one are added
  have hnulled : (w.push d.tree).nulled k =
      if w.origin = k then (d.name :: d.nulled k).foldr List.insert (w.nulled k) else [] := by
    unfold nulled
    by_cases hwo : w.origin = k
    · rw [origin_push, if_pos hwo, if_pos hwo, if_pos ho, if_pos hwo, push,
        Tree.keptNames_concat, tree, Tree.labels_node]
      rfl
    · rw [origin_push, if_neg hwo, if_neg hwo]
  have hhome : (w.push d.tree).home? k = w.home? k := rfl
  unfold item Item.advance
  rw [hnulled, hhome]
  simp [push, hparsed, hvs, Item.name, name]

/-- **The item of a stem moved over a finished stem** that begins in an earlier column is the item
moved from there. -/
theorem item_push_tree_of_lt (hw : w.Derived g input d.origin) (ho : d.origin < k)
    (hvalue : d.outcome k = .value v) :
    (w.push d.tree).item k = (w.item d.origin).advanceFrom d.origin v := by
  obtain ⟨vs, hvs⟩ := hw.valued
  have hparsed := values?_push_tree hw hvalue
  rw [hvs, Option.map_some] at hparsed
  have hwo : w.origin ≠ k := Nat.ne_of_lt (Nat.lt_of_le_of_lt hw.origin_le ho)
  have hhome := home?_push (c := d.tree) hw ho
  unfold item Item.advanceFrom
  rw [hhome]
  simp [push, nulled, hwo, hparsed, hvs]

/-- Reducing the children of the item gives the value of the tree. -/
theorem reduce_item (hd : d.Derived g input k) :
    d.rule.reduce (d.item k).children d.origin = d.tree.value? d.origin := by
  obtain ⟨vs, hvs⟩ := hd.valued
  rw [tree, Tree.value?_node, hvs, Option.bind_some, Item.children, item, hvs, Option.getD_some,
    List.reverse_reverse]

end Moved

/-! ## What a visit adds -/

/-- Whether the stem is finished under this name with a value and has taken no input. -/
def isEmptyOf (k : Nat) (name : String) (s : Stem) : Bool :=
  decide (s.origin = k) && decide (s.name = name) && (s.outcome k).value?.isSome

theorem isEmptyOf_iff {k : Nat} {name : String} {s : Stem} :
    s.isEmptyOf k name = true ↔
      s.origin = k ∧ s.name = name ∧ ∃ v, s.outcome k = .value v := by
  simp [isEmptyOf, Option.isSome_iff_exists, Outcome.value?_eq_some, and_assoc]

theorem isEmptyOf_of_next {k : Nat} {s : Stem} {sym : Symbol} (h : s.next? = some sym)
    (name : String) : s.isEmptyOf k name = false := by
  simp [isEmptyOf, outcome, h, Outcome.value?]

/-- **The names asked for** in a column by the stems visited so far. -/
def Known (g : Grammar) (k : Nat) (done : List Stem) (name : String) : Prop :=
  (k = 0 ∧ name = g.start) ∨ ∃ w ∈ done, w.wants name = true

instance (g : Grammar) (k : Nat) (done : List Stem) (name : String) :
    Decidable (Known g k done name) :=
  inferInstanceAs (Decidable (_ ∨ _))

/-- The stems in which a name is waited for since a column: those of an earlier column, or else the
ones visited so far. -/
def since (before : Nat → List Stem) (k : Nat) (done : List Stem) (origin : Nat) : List Stem :=
  if origin = k then done else before origin

theorem mem_since {before : Nat → List Stem} {k origin : Nat} {done : List Stem} {w : Stem} :
    w ∈ since before k done origin ↔
      (origin = k ∧ w ∈ done) ∨ (origin ≠ k ∧ w ∈ before origin) := by
  unfold since
  by_cases h : origin = k
  · simp [h]
  · simp [h]

/-- The rules of a name at their beginning. -/
def alternatives (g : Grammar) (k : Nat) (name : String) : List Stem :=
  (g.rulesFor name).zipIdx.map fun (rule, a) => predicted rule a k

theorem mem_alternatives {g : Grammar} {k : Nat} {name : String} {s : Stem} :
    s ∈ alternatives g k name ↔
      ∃ rule a, (g.rulesFor name)[a]? = some rule ∧ s = predicted rule a k := by
  simp [alternatives, List.mem_zipIdx_iff_getElem?, eq_comm]

theorem nodup_alternatives (g : Grammar) (k : Nat) (name : String) :
    (alternatives g k name).Nodup := by
  refine List.Nodup.of_map Stem.alternative ?_
  have hmap : (alternatives g k name).map Stem.alternative =
      (g.rulesFor name).zipIdx.map Prod.snd := by
    simp [alternatives, Function.comp_def, predicted]
  rw [hmap, List.zipIdx_map_snd]
  exact List.nodup_range'

/-- The items of the rules of a name at their beginning. -/
theorem map_item_alternatives (g : Grammar) (k : Nat) (name : String) :
    (alternatives g k name).map (item k) = (g.rulesFor name).map (Item.predicted · k) := by
  rw [alternatives, List.map_map, ← List.zipIdx_map_fst 0 (g.rulesFor name), List.map_map]
  simp [item, predicted, Item.predicted, Function.comp_def, nulled]

/-- **The stems that a visit adds.** -/
def news (g : Grammar) (before : Nat → List Stem) (k : Nat) (done : List Stem) (s : Stem) :
    List Stem :=
  match s.next? with
  | none =>
    if (s.outcome k).value?.isSome then
      ((since before k done s.origin).filter (·.wants s.name)).reverse.map (·.push s.tree)
    else []
  | some (.nonterminal name) =>
    if Known g k done name then
      (done.filter (isEmptyOf k name)).map fun d => s.push d.tree
    else
      alternatives g k name
  | some _ => []

end Stem

/-- **The stems of the earlier columns**: each column holds the stems that are charted there, each
once, and those that wait for a name in order. -/
structure Backing (g : Grammar) (input : List Token) (earlier : Array Column)
    (before : Nat → List Stem) : Prop where
  waiting : ∀ m column name, earlier[m]? = some column →
    column.waiting name = ((before m).filter (·.wants name)).map (Stem.item m)
  charted : ∀ m < earlier.size, ∀ s, s ∈ before m ↔ s.Charted g input m
  nodup : ∀ m < earlier.size, (before m).Nodup

namespace Column

/-- **A column traces stems**: it has visited those of `done` and has those of `todo` to visit. -/
structure Traces (g : Grammar) (k : Nat) (done todo : List Stem) (column : Column) : Prop where
  items : column.items.toList = done.map (Stem.settled k) ++ todo.map (Stem.item k)
  wanted : ∀ name, column.wanted.get name = done.findIdxs (·.wants name)
  known : ∀ name, column.wanted.contains name = true ↔ Stem.Known g k done name
  scannable : column.scannable.toList = done.findIdxs Stem.scans
  empties : ∀ name, column.empties.get name = done.findIdxs (Stem.isEmptyOf k name)

/-- The entries at the places of a part of a row, that part standing in front. -/
theorem filterMap_findIdxs {α β : Type} (p : α → Bool) (f : α → β) (front : List α)
    (rest : List β) :
    (front.findIdxs p).filterMap (fun i => (front.map f ++ rest)[i]?) = (front.filter p).map f := by
  induction front using List.reverseRecOn generalizing rest with
  | nil => rfl
  | append_singleton front a ih =>
    -- of the last entry only its place is new, and that stands behind the front
    have hfront := ih (f a :: rest)
    rw [List.findIdxs_append, List.filterMap_append, List.map_append, List.map_singleton,
      List.append_assoc, List.singleton_append, hfront, List.filter_append, List.map_append]
    by_cases hp : p a = true <;> simp [hp]

namespace Traces

variable {g : Grammar} {input : List Token} {k : Nat} {done todo rest : List Stem} {s : Stem}
  {column : Column}

theorem size (h : Traces g k done todo column) : column.size = done.length + todo.length := by
  rw [Column.size, ← Array.length_toList, h.items, List.length_append, List.length_map,
    List.length_map]

theorem getElem? (h : Traces g k done (s :: rest) column) :
    column.items[done.length]? = some (s.item k) := by
  rw [← Array.getElem?_toList, h.items, List.getElem?_append_right (by simp)]
  simp

theorem itemsAt (h : Traces g k done todo column) (p : Stem → Bool) :
    column.itemsAt (done.findIdxs p) = (done.filter p).map (Stem.settled k) := by
  rw [← filterMap_findIdxs p (Stem.settled k) done (todo.map (Stem.item k)), ← h.items,
    Column.itemsAt]
  simp only [Array.getElem?_toList]

/-- **The items that wait for a name** are those of the visited stems that do. -/
theorem waiting (h : Traces g k done todo column) (name : String) :
    column.waiting name = (done.filter (·.wants name)).map (Stem.item k) := by
  rw [Column.waiting, h.wanted, h.itemsAt]
  -- a stem that waits is pending, so the visit has left its item as it was
  apply List.map_congr_left
  intro w hw
  have hnext := Stem.wants_iff.mp (List.mem_filter.mp hw).2
  exact Stem.settled_eq_item (by simp [hnext])

/-- The items that wait for a token are those of the visited stems that do. -/
theorem waitingForToken (h : Traces g k done todo column) :
    column.itemsAt column.scannable.toList = (done.filter Stem.scans).map (Stem.item k) := by
  rw [h.scannable, h.itemsAt]
  apply List.map_congr_left
  intro w hw
  obtain ⟨sym, hnext, -⟩ := Stem.scans_iff.mp (List.mem_filter.mp hw).2
  exact Stem.settled_eq_item (by simp [hnext])

/-- The finished items without input, each with its value, are those of the visited stems. -/
theorem map_finishedEmpty {β : Type} (h : Traces g k done todo column) (name : String)
    (f : Item → Value → β) (f' : Stem → β)
    (hf : ∀ d ∈ done, d.isEmptyOf k name = true → ∀ v, d.outcome k = .value v →
      f (d.settled k) v = f' d) :
    (column.finishedEmpty name).map (fun (d, v) => f d v) =
      (done.filter (Stem.isEmptyOf k name)).map f' := by
  rw [Column.finishedEmpty, h.empties, h.itemsAt, List.filterMap_map, List.map_filterMap,
    ← List.filterMap_eq_map]
  apply List.filterMap_congr
  intro d hd
  obtain ⟨hmem, hempty⟩ := List.mem_filter.mp hd
  obtain ⟨-, -, v, hv⟩ := Stem.isEmptyOf_iff.mp hempty
  simp [Stem.settled, hv, Outcome.value?, ← hf d hmem hempty v hv]

/-- Going on by one stem: what has to be said of the column afterwards. -/
theorem step {news : List Stem} {next : Column} (h : Traces g k done (s :: rest) column)
    (hitems : next.items.toList =
      done.map (Stem.settled k) ++ s.settled k :: (rest ++ news).map (Stem.item k))
    (hwanted : ∀ name, next.wanted.get name =
      column.wanted.get name ++ if s.wants name then [done.length] else [])
    (hknown : ∀ name, next.wanted.contains name = true ↔
      column.wanted.contains name = true ∨ s.wants name = true)
    (hscannable : next.scannable.toList =
      column.scannable.toList ++ if s.scans then [done.length] else [])
    (hempties : ∀ name, next.empties.get name =
      column.empties.get name ++ if s.isEmptyOf k name then [done.length] else []) :
    Traces g k (done ++ [s]) (rest ++ news) next where
  items := by simp [hitems]
  wanted := by
    intro name
    rw [hwanted, h.wanted, List.findIdxs_append, List.findIdxs_singleton, Nat.zero_add]
  known := by
    intro name
    rw [hknown, h.known]
    simp [Stem.Known, or_assoc, or_and_right, exists_or]
  scannable := by
    rw [hscannable, h.scannable, List.findIdxs_append, List.findIdxs_singleton, Nat.zero_add]
  empties := by
    intro name
    rw [hempties, h.empties, List.findIdxs_append, List.findIdxs_singleton, Nat.zero_add]

/-- Deciding on the stem that is visited. -/
theorem settle_items (h : Traces g k done (s :: rest) column) :
    (column.settle done.length (s.outcome k)).items.toList =
      done.map (Stem.settled k) ++ s.settled k :: rest.map (Stem.item k) := by
  -- the stem that is visited stands behind those of `done`
  have hlen : done.length = 0 + (done.map (Stem.settled k)).length := by simp
  rw [Column.settle, Array.toList_modify, h.items, hlen, List.modify, Nat.add_comm,
    List.modifyTailIdx_add]
  rfl

variable {earlier : Array Column} {before : Nat → List Stem}

/-- A visit to a finished stem, in terms of its outcome. -/
theorem finish_item (hk : earlier.size = k) (hs : s.Derived g input k) (hnext : s.next? = none)
    (i : Nat) :
    column.finish earlier i (s.item k) =
      match (s.outcome k).value? with
      | none => column.settle i (s.outcome k)
      | some v =>
        let next := (column.settle i (s.outcome k)).append (column.moved earlier (s.item k) v)
        if s.origin = k then next.fileEmpty s.name i else next := by
  subst hk
  -- an item that begins in its column has no earlier one to go back to, and conversely
  have hhome : (s.item earlier.size).home = none ↔ s.origin = earlier.size := Stem.home?_eq_none_iff
  unfold Column.finish Stem.outcome
  simp only [hnext, hhome]
  by_cases hsub : s.origin = earlier.size ∧ s.name ∈ s.nulled earlier.size
  · rw [if_pos hsub]
    exact if_pos ⟨hsub.1, hsub⟩
  · rw [if_neg hsub]
    refine (if_neg fun h => hsub h.2).trans ?_
    rw [show (s.item earlier.size).rule.reduce (s.item earlier.size).children
      (s.item earlier.size).origin = s.tree.value? s.origin from Stem.reduce_item hs]
    cases s.tree.value? s.origin <;> rfl

/-- A finished stem without a value adds nothing. -/
theorem settle (h : Traces g k done (s :: rest) column) (hnext : s.next? = none)
    (hv : (s.outcome k).value? = none) :
    Traces g k (done ++ [s]) (rest ++ Stem.news g before k done s)
      (column.settle done.length (s.outcome k)) := by
  have hnews : Stem.news g before k done s = [] := by
    rw [Stem.news, hnext]
    simp [hv]
  rw [hnews]
  apply h.step
  · rw [h.settle_items, List.append_nil]
  · intro name
    simp [Column.settle, Stem.wants_of_finished hnext name]
  · intro name
    simp [Column.settle, Stem.wants_of_finished hnext name]
  · simp [Column.settle, Stem.scans_of_finished hnext]
  · intro name
    simp [Column.settle, Stem.isEmptyOf, hv]

/-- **The items that a finished item moves on** are those of the stems that its stem moves on. -/
theorem moved_item (h : Traces g k done todo column) (hback : Backing g input earlier before)
    (hk : earlier.size = k) (hdone : ∀ w ∈ done, w.Derived g input k) (hs : s.Derived g input k)
    {v : Value} (hv : s.outcome k = .value v) :
    column.moved earlier (s.item k) v = (Stem.news g before k done s).map (Stem.item k) := by
  have hnext : s.next? = none := (Stem.outcome_eq_value_iff.mp hv).1
  rw [Stem.news, hnext]
  simp only [hv, Outcome.value?, Option.isSome_some, if_true]
  rw [List.map_map]
  by_cases ho : s.origin = k
  · -- the stems that move stand in this column
    have hhome : (s.item k).home = none := Stem.home?_eq_none_iff.mpr ho
    rw [Column.moved_of_none hhome, hk, h.waiting, Stem.since, if_pos ho, ← List.map_reverse,
      List.map_map]
    apply List.map_congr_left
    intro w hw
    have hmem := (List.mem_filter.mp (List.mem_reverse.mp hw)).1
    exact (Stem.item_push_tree (hdone w hmem) ho hv).symm
  · -- they stand in an earlier one
    have hlt : s.origin < k := Nat.lt_of_le_of_ne hs.origin_le ho
    have hhome : (s.item k).home = some s.origin := Stem.home?_of_ne ho
    have hcolumn := Array.getElem?_eq_getElem (hk ▸ hlt : s.origin < earlier.size)
    rw [Column.moved_of_some hhome hcolumn, hback.waiting _ _ _ hcolumn, Stem.since, if_neg ho,
      ← List.map_reverse, List.map_map]
    apply List.map_congr_left
    intro w hw
    have hmem := (List.mem_filter.mp (List.mem_reverse.mp hw)).1
    have hcharted := (hback.charted _ (hk ▸ hlt) w).mp hmem
    exact (Stem.item_push_tree_of_lt hcharted.derived hlt hv).symm

/-- **A visit to a finished stem**: nothing happens unless it has a value, and then the stems that
waited for it move on. -/
theorem finish (h : Traces g k done (s :: rest) column) (hback : Backing g input earlier before)
    (hk : earlier.size = k) (hdone : ∀ w ∈ done, w.Derived g input k) (hs : s.Derived g input k)
    (hnext : s.next? = none) :
    Traces g k (done ++ [s]) (rest ++ Stem.news g before k done s)
      (column.finish earlier done.length (s.item k)) := by
  rw [finish_item hk hs hnext]
  cases hv : (s.outcome k).value? with
  | none => exact h.settle hnext hv
  | some v =>
    have hout : s.outcome k = .value v := Outcome.value?_eq_some.mp hv
    dsimp only
    rw [h.moved_item hback hk hdone hs hout]
    apply h.step
    · have hitems := h.settle_items
      split <;> simp [Column.append, Column.fileEmpty, hitems]
    · intro name
      have hwants := Stem.wants_of_finished hnext name
      split <;> simp [Column.append, Column.fileEmpty, Column.settle, hwants]
    · intro name
      have hwants := Stem.wants_of_finished hnext name
      split <;> simp [Column.append, Column.fileEmpty, Column.settle, hwants]
    · have hscans := Stem.scans_of_finished hnext
      split <;> simp [Column.append, Column.fileEmpty, Column.settle, hscans]
    · -- only a stem that has taken no input is filed
      intro name
      split
      · next ho =>
        simp only [Column.append, Column.fileEmpty, Column.settle, Register.get_file]
        by_cases hname : name = s.name
        · simp [Stem.isEmptyOf, ho, hname, hv]
        · simp [Stem.isEmptyOf, Ne.symm hname, hname]
      · next ho => simp [Column.append, Column.settle, Stem.isEmptyOf, ho]

/-- The stems that a stem in front of a nonterminal brings in or moves to. -/
theorem map_news (h : Traces g k done todo column) (hdone : ∀ w ∈ done, w.Derived g input k)
    (hs : s.Derived g input k) {name : String} (hnext : s.next? = some (.nonterminal name))
    (before : Nat → List Stem) :
    (if column.wanted.contains name then
        (column.finishedEmpty name).map fun (d, v) => (s.item k).advance k d v
      else
        (g.rulesFor name).map fun rule => Item.predicted rule k) =
      (Stem.news g before k done s).map (Stem.item k) := by
  rw [Stem.news, hnext]
  by_cases hknown : Stem.Known g k done name
  · -- a later one to ask: the finished stems without input begin in this column
    simp only [(h.known name).mpr hknown, hknown, if_true]
    rw [List.map_map]
    refine h.map_finishedEmpty name (fun d v => (s.item k).advance k d v) _ ?_
    intro d hd hempty v hv
    obtain ⟨rfl, -⟩ := Stem.isEmptyOf_iff.mp hempty
    exact (Stem.item_push_tree hs rfl hv).symm
  · -- the first one to ask
    have hcontains : ¬column.wanted.contains name = true := mt (h.known name).mp hknown
    rw [if_neg hcontains]
    simp only [hknown, if_false]
    exact (Stem.map_item_alternatives g k name).symm

/-- **A visit to a stem in front of a nonterminal**: it brings in the rules if it is the first to
ask, and else moves over what is finished without input. -/
theorem ask (h : Traces g k done (s :: rest) column) (hk : earlier.size = k)
    (hdone : ∀ w ∈ done, w.Derived g input k) (hs : s.Derived g input k) {name : String}
    (hnext : s.next? = some (.nonterminal name)) :
    Traces g k (done ++ [s]) (rest ++ Stem.news g before k done s)
      (column.ask g earlier done.length (s.item k) name) := by
  have hwants : ∀ other, s.wants other = decide (other = name) := by
    intro other
    by_cases ho : other = name
    · simp [Stem.wants, hnext, ho]
    · simp [Stem.wants, hnext, ho, Ne.symm ho]
  unfold Column.ask
  rw [hk, h.map_news hdone hs hnext before]
  have hsettled : s.settled k = s.item k := Stem.settled_eq_item (by simp [hnext])
  apply h.step
  · simp [Column.append, Column.await, h.items, hsettled]
  · intro other
    simp only [Column.append, Column.await, Register.get_file, hwants]
    by_cases ho : other = name <;> simp [ho]
  · intro other
    simp [Column.append, Column.await, Register.contains_file, hwants, or_comm]
  · simp [Column.append, Column.await, Stem.scans, hnext]
  · intro other
    simp [Column.append, Column.await, Stem.isEmptyOf_of_next hnext]

/-- A visit to a stem in front of a terminal: it waits for the next token. -/
theorem awaitToken (h : Traces g k done (s :: rest) column) {sym : Symbol}
    (hnext : s.next? = some sym) (hsym : sym.isTerminal = true) :
    Traces g k (done ++ [s]) (rest ++ Stem.news g before k done s)
      (column.awaitToken done.length) := by
  have hscans : s.scans = true := Stem.scans_iff.mpr ⟨sym, hnext, hsym⟩
  have hwants : ∀ name, s.wants name = false := by
    intro name
    cases sym <;> simp_all [Stem.wants, Symbol.isTerminal]
  have hnews : Stem.news g before k done s = [] := by
    cases sym <;> simp_all [Stem.news, Symbol.isTerminal]
  rw [hnews]
  have hsettled : s.settled k = s.item k := Stem.settled_eq_item (by simp [hnext])
  apply h.step
  · simp [Column.awaitToken, h.items, hsettled]
  · intro name
    simp [Column.awaitToken, hwants]
  · intro name
    simp [Column.awaitToken, hwants]
  · simp [Column.awaitToken, hscans]
  · intro name
    simp [Column.awaitToken, Stem.isEmptyOf_of_next hnext]

/-- **A visit adds the news of the stem** that it visits. -/
theorem visit (h : Traces g k done (s :: rest) column) (hback : Backing g input earlier before)
    (hk : earlier.size = k) (hdone : ∀ w ∈ done, w.Derived g input k)
    (hs : s.Derived g input k) :
    Traces g k (done ++ [s]) (rest ++ Stem.news g before k done s)
      (column.visit g earlier done.length) := by
  unfold Column.visit
  rw [h.getElem?]
  simp only [Stem.next?_item]
  cases hnext : s.next? with
  | none => exact h.finish hback hk hdone hs hnext
  | some sym =>
    cases sym with
    | nonterminal name => exact h.ask hk hdone hs hnext
    | _ => exact h.awaitToken hnext rfl

/-- Nothing is left to visit. -/
theorem closeFrom_nil (h : Traces g k done [] column) (fuel : Nat) :
    closeFrom g earlier fuel done.length column = some column := by
  have hsize : ¬ done.length < column.size := by
    rw [h.size]
    exact Nat.lt_irrefl _
  cases fuel with
  | zero => rw [closeFrom, if_neg hsize]
  | succ fuel => rw [closeFrom, if_neg hsize]

theorem length_lt_size (h : Traces g k done (s :: rest) column) : done.length < column.size := by
  rw [h.size, List.length_cons]
  omega

/-- A stem is left to visit, and no visit is allowed any more. -/
theorem closeFrom_zero (h : Traces g k done (s :: rest) column) :
    closeFrom g earlier 0 done.length column = none := by
  rw [closeFrom, if_pos h.length_lt_size]

/-- A stem is left to visit, and a visit is allowed. -/
theorem closeFrom_succ (h : Traces g k done (s :: rest) column) (fuel : Nat) :
    closeFrom g earlier (fuel + 1) done.length column =
      closeFrom g earlier fuel (done ++ [s]).length (column.visit g earlier done.length) := by
  rw [closeFrom, if_pos h.length_lt_size, List.length_append, List.length_singleton]

end Traces

end Column

end Earley
