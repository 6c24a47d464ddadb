import Earley.Proofs.Chart.Record
import Mathlib.Logic.Relation

/-!
# The names that items keep

The trees below a stem are those of stems of their own, which begin and end in columns of the same
chart, and all of these are finished with a value. An item without input keeps the names of the
stems inside its own, so of the derivations without input that it contains; an item with input keeps
none. So what is subsumed is exactly what repeats its own name without input, and nothing that is
subsumed or rejected is ever part of something else.

The stem of an item is the one that the record of the chart has for it.

## Main definitions

* `Stem.ChildOf`, `Stem.Inside`: the stems below a stem
* `Item.KeepsNames`: an item with the names of the derivations without input in its stem
* `Chart.KeepsNames`: a chart of such items

## Main results

* `Stem.mem_names_iff`: the names inside a row of trees are those of the stems inside
* `Stem.Charted.of_inside`: the stems inside a charted stem are charted, with values
* `Chart.Recorded.keepsNames`: the items of a chart with a record
-/

namespace Earley

namespace Stem

/-! ## Stems inside a stem -/

/-- **A stem is a child of another one** if its tree is one of the children of that, and it begins
where those in front end. -/
def ChildOf (d s : Stem) : Prop :=
  ∃ front back, s.children = front ++ d.tree :: back ∧
    d.origin = s.origin + (front.flatMap Tree.tokens).length

/-- **A stem stands inside another one**, at any depth. -/
def Inside : Stem → Stem → Prop :=
  Relation.TransGen ChildOf

variable {g : Grammar} {input : List Token} {k : Nat} {s d w : Stem} {c : Tree} {name : String}

theorem not_childOf_predicted (rule : Rule) (a o : Nat) : ¬ d.ChildOf (predicted rule a o) := by
  rintro ⟨front, back, hchildren, -⟩
  have hempty : front ++ d.tree :: back = [] := hchildren.symm
  simp at hempty

/-- The children of a stem that has moved are those that it had, and the one that it has moved
over. -/
theorem ChildOf.of_push (h : d.ChildOf (w.push c)) :
    d.ChildOf w ∨ (c = d.tree ∧ d.origin = w.origin + w.tokens.length) := by
  obtain ⟨front, back, hchildren, ho⟩ := h
  have hchildren : w.children ++ [c] = front ++ d.tree :: back := hchildren
  rcases List.eq_nil_or_concat back with rfl | ⟨back, b, rfl⟩
  · obtain ⟨rfl, hc⟩ := List.append_inj' hchildren rfl
    exact .inr ⟨List.singleton_inj.mp hc, ho⟩
  · have hsplit : w.children ++ [c] = (front ++ d.tree :: back) ++ [b] := by
      rw [hchildren, List.append_assoc, List.cons_append, List.concat_eq_append]
    exact .inl ⟨front, back, (List.append_inj' hsplit rfl).1, ho⟩

/-- A child in a row of trees is that of some stem. -/
theorem exists_childOf {rule : Rule} {a : Nat} {children : List Tree}
    (h : Tree.node rule a children ∈ s.children) :
    ∃ o, ChildOf ⟨rule, a, o, children⟩ s := by
  obtain ⟨front, back, hchildren⟩ := List.append_of_mem h
  exact ⟨_, front, back, hchildren, rfl⟩

theorem ChildOf.mem_children (h : d.ChildOf s) : d.tree ∈ s.children := by
  obtain ⟨front, back, hchildren, -⟩ := h
  rw [hchildren]
  exact List.mem_append_right front List.mem_cons_self

/-- What is inside has its name among those inside. -/
theorem Inside.name_mem (h : d.Inside s) : d.name ∈ s.children.flatMap Tree.names := by
  induction h with
  | single h =>
    refine List.mem_flatMap.mpr ⟨d.tree, h.mem_children, ?_⟩
    rw [tree, Tree.names_node]
    exact List.mem_cons_self
  | @tail b s _ h ih =>
    refine List.mem_flatMap.mpr ⟨b.tree, h.mem_children, ?_⟩
    rw [tree, Tree.names_node]
    exact List.mem_cons_of_mem _ ih

/-- A name at a node below a tree is that of a stem inside. -/
theorem exists_inside_of_tree (tree : Tree) : ∀ s : Stem, s.tree = tree →
    name ∈ s.children.flatMap Tree.names → ∃ d : Stem, d.Inside s ∧ d.name = name := by
  induction tree with
  | leaf t =>
    intro s htree
    exact nomatch htree
  | node rule a children ih =>
    intro s htree hname
    obtain ⟨-, -, rfl⟩ := Tree.node.inj htree
    obtain ⟨c, hc, hname⟩ := List.mem_flatMap.mp hname
    cases c with
    | leaf t =>
      rw [Tree.names_leaf] at hname
      exact absurd hname List.not_mem_nil
    | node rule' a' children' =>
      obtain ⟨o, hchild⟩ := exists_childOf hc
      rw [Tree.names_node] at hname
      rcases List.mem_cons.mp hname with rfl | hbelow
      · exact ⟨_, .single hchild, rfl⟩
      · obtain ⟨d, hd, hdname⟩ := ih _ hc ⟨rule', a', o, children'⟩ rfl hbelow
        exact ⟨d, hd.tail hchild, hdname⟩

/-- **The names inside a stem are those of the stems inside.** -/
theorem mem_names_iff :
    name ∈ s.children.flatMap Tree.names ↔ ∃ d : Stem, d.Inside s ∧ d.name = name := by
  constructor
  · exact exists_inside_of_tree s.tree s rfl
  · rintro ⟨d, hd, rfl⟩
    exact hd.name_mem

/-- Inside a stem without input nothing takes input. -/
theorem Inside.tokens_eq_nil (h : d.Inside s) (hs : s.tokens = []) : d.tokens = [] := by
  have hchild : ∀ {b s : Stem}, b.ChildOf s → s.tokens = [] → b.tokens = [] := by
    intro b s hb hs
    rw [← tokens_tree]
    exact List.flatMap_eq_nil_iff.mp hs _ hb.mem_children
  induction h with
  | single h => exact hchild h hs
  | tail _ h ih => exact ih (hchild h hs)

/-! ## Charted stems -/

/-- **A child of a charted stem is charted**, and has a value. -/
theorem Charted.of_childOf (h : s.Charted g input k) (hd : d.ChildOf s) :
    ∃ m v, d.Charted g input m ∧ d.outcome m = .value v := by
  -- along the steps that lead to the stem: the last one has moved over the child, or an earlier one
  induction h with
  | start => exact absurd hd (not_childOf_predicted _ _ _)
  | predict => exact absurd hd (not_childOf_predicted _ _ _)
  | scan _ _ _ _ ih =>
    rcases hd.of_push with hd | ⟨hleaf, -⟩
    · exact ih hd
    · exact nomatch hleaf
  | @complete k w d' v hw hnext hd' hvalue ihw _ =>
    rcases hd.of_push with hd | ⟨htree, ho⟩
    · exact ihw hd
    · rw [hw.derived.origin_add_length] at ho
      obtain rfl := tree_inj htree ho.symm
      exact ⟨k, v, hd', hvalue⟩

/-- **What is inside a charted stem is charted**, and has a value. -/
theorem Charted.of_inside (h : s.Charted g input k) (hd : d.Inside s) :
    ∃ m v, d.Charted g input m ∧ d.outcome m = .value v := by
  induction hd generalizing k with
  | single hd => exact h.of_childOf hd
  | tail _ hs ih =>
    obtain ⟨m, v, hb, -⟩ := h.of_childOf hs
    exact ih hb

/-- A stem is charted in one column only. -/
theorem Charted.column_eq {m : Nat} (h : s.Charted g input k) (h' : s.Charted g input m) :
    m = k :=
  h'.derived.origin_add_length.symm.trans h.derived.origin_add_length

/-- **The names that the item of a stem keeps** in the column where it begins are those of the stems
inside. -/
theorem Charted.mem_nulled_iff (h : s.Charted g input k) (ho : s.origin = k) :
    name ∈ s.nulled k ↔ ∃ d : Stem, d.Inside s ∧ d.tokens = [] ∧ d.name = name := by
  have hs : s.tokens = [] := h.derived.tokens_eq_nil_iff.mpr ho
  rw [nulled, if_pos ho, Tree.mem_keptNames, mem_names_iff]
  refine exists_congr fun d => and_congr_right fun hd => ?_
  rw [and_iff_right (hd.tokens_eq_nil hs)]

/-- A finished stem without input is subsumed if its name is kept. -/
theorem outcome_eq_subsumed_iff (hnext : s.next? = none) (ho : s.origin = k) :
    s.outcome k = .subsumed ↔ s.name ∈ s.nulled k := by
  unfold outcome
  rw [hnext]
  dsimp only
  split
  · next hs => exact iff_of_true rfl hs.2
  · next hs =>
    refine iff_of_false ?_ fun hname => hs ⟨ho, hname⟩
    split <;> exact nofun

end Stem

/-! ## Items with a record -/

/-- **An item keeps the names** of the derivations without input in its stem. -/
structure Item.KeepsNames (k : Nat) (item : Item) (s : Stem) : Prop where
  /-- The stem is the one of the item. -/
  rule : item.rule = s.rule
  dot : item.dot = s.children.length
  origin : item.origin = s.origin
  children : Tree.values? s.origin s.children = some item.children
  /-- The stem ends in the column of the item. -/
  column : s.origin + s.tokens.length = k
  /-- An item without input has the names of the stems inside, none of which takes input. -/
  mem_nulled_iff : item.origin = k →
    ∀ name, name ∈ item.nulled ↔ ∃ d : Stem, d.Inside s ∧ d.tokens = [] ∧ d.name = name
  /-- An item with input has none. -/
  nulled_eq_nil : item.origin < k → item.nulled = []
  /-- A finished item without input is subsumed if its name is inside. -/
  subsumed_iff : item.isComplete = true → item.origin = k →
    (item.outcome = .subsumed ↔ ∃ d : Stem, d.Inside s ∧ d.name = item.name)

/-- The item of a charted stem keeps its names. -/
theorem Stem.Charted.keepsNames {g : Grammar} {input : List Token} {k : Nat} {s : Stem}
    (h : s.Charted g input k) : (s.settled k).KeepsNames k s where
  rule := rfl
  dot := rfl
  origin := rfl
  children := by
    obtain ⟨vs, hvs⟩ := h.derived.valued
    rw [hvs, Item.children]
    simp [settled, item, hvs]
  column := h.derived.origin_add_length
  mem_nulled_iff := fun ho _ => h.mem_nulled_iff ho
  nulled_eq_nil := fun hlt => if_neg (Nat.ne_of_lt hlt)
  subsumed_iff := by
    intro hcomplete ho
    have hnext : s.next? = none := Option.isNone_iff_eq_none.mp hcomplete
    have hs : s.tokens = [] := h.derived.tokens_eq_nil_iff.mpr ho
    refine (outcome_eq_subsumed_iff hnext ho).trans ((h.mem_nulled_iff ho).trans ?_)
    refine exists_congr fun d => and_congr_right fun hd => ?_
    exact and_iff_right (hd.tokens_eq_nil hs)

namespace Chart

/-- **A chart with a record of it keeps names**: each item has an entry, and keeps the names of
that; and what is inside an entry is an entry itself, of items with values only. -/
structure KeepsNames (chart : Chart) (records : List (List Stem)) : Prop where
  isSome_stem? : ∀ place, (stem? records place).isSome = (chart.item? place).isSome
  keepsNames : ∀ place item s, chart.item? place = some item → stem? records place = some s →
    item.KeepsNames place.column s
  exists_inside : ∀ place (s d : Stem), stem? records place = some s → d.Inside s →
    ∃ inner, stem? records inner = some d
  /-- No two items have the same entry. -/
  stem?_inj : ∀ place other (s : Stem), stem? records place = some s →
    stem? records other = some s → place = other
  /-- Nothing subsumed or rejected is inside. -/
  outcome_inside : ∀ place (s d : Stem) inner item, stem? records place = some s → d.Inside s →
    stem? records inner = some d → chart.item? inner = some item →
    ∃ v, item.outcome = .value v

variable {g : Grammar} {input : List Token} {chart : Chart} {records : List (List Stem)}
  {place : Place} {s : Stem} {item : Item}

theorem stem?_eq (records : List (List Stem)) (place : Place) :
    stem? records place = (records.getD place.column [])[place.entry]? := by
  rw [stem?, List.getD_eq_getElem?_getD]
  cases records[place.column]? with
  | none => rfl
  | some record => rfl

namespace Chronicle

/-- The item at a place is that of its entry. -/
theorem item?_eq (h : Chronicle g input chart records) (place : Place) :
    chart.item? place = (stem? records place).map (Stem.settled place.column) := by
  by_cases hk : place.column ≤ chart.index
  · obtain ⟨column, hcolumn⟩ := exists_column? hk
    rw [item?, hcolumn, stem?_eq, Option.bind_some, (h.traces _ _ hcolumn).getElem?_items]
  · have hnone : records[place.column]? = none := by
      rw [List.getElem?_eq_none_iff, h.length_eq]
      omega
    rw [item?, column?, if_neg hk, stem?, hnone]
    rfl

/-- Entries are charted. -/
theorem charted_of_stem? (h : Chronicle g input chart records)
    (hentry : stem? records place = some s) : s.Charted g input place.column := by
  have hk : place.column ≤ chart.index := by
    obtain ⟨record, hrecord, -⟩ := Option.bind_eq_some_iff.mp hentry
    have hlt := (List.getElem?_eq_some_iff.mp hrecord).1
    have hlength := h.length_eq
    omega
  rw [stem?_eq] at hentry
  exact (h.charted _ hk s).mp (List.mem_of_getElem? hentry)

/-- Each entry is there once. -/
theorem stem?_inj {other : Place} (h : Chronicle g input chart records)
    (hentry : stem? records place = some s) (hother : stem? records other = some s) :
    place = other := by
  have hs := h.charted_of_stem? hentry
  have hcolumn : place.column = other.column :=
    (h.charted_of_stem? hother).column_eq hs
  have hk : place.column ≤ chart.index := Nat.le_trans hs.derived.le_length h.length_le
  rw [stem?_eq] at hentry hother
  rw [← hcolumn] at hother
  obtain ⟨hlt, -⟩ := List.getElem?_eq_some_iff.mp hentry
  have hrow := (List.getElem?_inj hlt (h.nodup _ hk)).mp (hentry.trans hother.symm)
  obtain ⟨column, entry⟩ := place
  obtain ⟨column', entry'⟩ := other
  obtain rfl : column = column' := hcolumn
  obtain rfl : entry = entry' := hrow
  rfl

/-- Charted stems have entries. -/
theorem exists_stem? {k : Nat} (h : Chronicle g input chart records)
    (hs : s.Charted g input k) : ∃ place, stem? records place = some s := by
  have hk : k ≤ chart.index := Nat.le_trans hs.derived.le_length h.length_le
  obtain ⟨i, hi⟩ := List.getElem?_of_mem ((h.charted k hk s).mpr hs)
  exact ⟨⟨k, i⟩, by rw [stem?_eq, hi]⟩

end Chronicle

/-- **A chart keeps names**, whatever its record. -/
theorem Recorded.keepsNames (h : Recorded g chart records) : chart.KeepsNames records := by
  obtain ⟨input, hrecords⟩ := h.exists_chronicle
  refine ⟨?_, ?_, ?_, fun _ _ _ => hrecords.stem?_inj, ?_⟩
  · intro place
    rw [hrecords.item?_eq, Option.isSome_map]
  · intro place item s hitem hentry
    rw [hrecords.item?_eq, hentry] at hitem
    obtain rfl := Option.some.inj hitem
    exact (hrecords.charted_of_stem? hentry).keepsNames
  · intro place s d hentry hd
    obtain ⟨m, v, hcharted, -⟩ := (hrecords.charted_of_stem? hentry).of_inside hd
    exact hrecords.exists_stem? hcharted
  · intro place s d inner item hentry hd hinner hitem
    obtain ⟨m, v, hcharted, hvalue⟩ := (hrecords.charted_of_stem? hentry).of_inside hd
    rw [hrecords.item?_eq, hinner] at hitem
    obtain rfl := Option.some.inj hitem
    -- the entry stands in the column where the stem ends
    obtain rfl := (hrecords.charted_of_stem? hinner).column_eq hcharted
    exact ⟨v, hvalue⟩

end Chart

end Earley
