import Earley.Chart.Item
import Earley.Proofs.Grammar.Tree

/-!
# Stems

A stem is a rule under way together with the trees of the symbols before its dot: an item with its
history. The item follows from the stem and the column, so the items of a chart are told apart by
their stems even where they are equal.

## Main definitions

* `Stem`: a rule under way with the trees before its dot
* `Stem.item`, `Stem.outcome`: its item in a column, and what becomes of it there
* `Stem.home?`: the earlier column to which that item goes back

## Main results

* `Stem.push_inj`, `Stem.tree_inj`: steps that lead to one stem are the same
* `Stem.outcome_eq_value_iff`: when a stem has a value
-/

namespace Earley

/-- **A rule under way** with the trees of the symbols before its dot, in order. -/
structure Stem where
  rule : Rule
  /-- The number of the rule among the alternatives of its name. -/
  alternative : Nat
  /-- The column in which the stem begins. -/
  origin : Nat
  children : List Tree := []

namespace Stem

/-- The name of the rule. -/
def name (s : Stem) : String :=
  s.rule.name

/-- The symbol behind the dot. -/
def next? (s : Stem) : Option Symbol :=
  s.rule.symbols[s.children.length]?

/-- The tokens of the children. -/
def tokens (s : Stem) : List Token :=
  s.children.flatMap Tree.tokens

/-- The tree of a stem, its children being those of a whole node. -/
def tree (s : Stem) : Tree :=
  .node s.rule s.alternative s.children

/-- A rule at its beginning. -/
def predicted (rule : Rule) (alternative origin : Nat) : Stem :=
  { rule, alternative, origin }

/-- The stem with its dot moved over a tree. -/
def push (s : Stem) (c : Tree) : Stem :=
  { s with children := s.children ++ [c] }

/-- Whether the stem waits for a nonterminal of this name. -/
def wants (s : Stem) (name : String) : Bool :=
  match s.next? with
  | some (.nonterminal other) => other == name
  | _ => false

/-- Whether the stem waits for a token. -/
def scans (s : Stem) : Bool :=
  match s.next? with
  | none => false
  | some (.nonterminal _) => false
  | some _ => true

/-! ## The item of a stem -/

/-- The names that the stem's item keeps in a column. -/
def nulled (k : Nat) (s : Stem) : List String :=
  if s.origin = k then Tree.keptNames s.children else []

/-- The earlier column to which the stem's item goes back from a column. -/
def home? (k : Nat) (s : Stem) : Option Nat :=
  if s.origin = k then none else some s.origin

/-- **What becomes of a stem** that is visited in a column. -/
def outcome (k : Nat) (s : Stem) : Outcome :=
  match s.next? with
  | some _ => .pending
  | none =>
    if s.origin = k ∧ s.name ∈ s.nulled k then
      .subsumed
    else
      match s.tree.value? s.origin with
      | none => .rejected
      | some v => .value v

/-- **The item of a stem** in a column, before it is visited. -/
def item (k : Nat) (s : Stem) : Item :=
  { rule := s.rule
    dot := s.children.length
    origin := s.origin
    home := s.home? k
    parsed := ((Tree.values? s.origin s.children).getD []).reverse
    nulled := s.nulled k }

/-- The item of a stem in a column, after it is visited. -/
def settled (k : Nat) (s : Stem) : Item :=
  { s.item k with outcome := s.outcome k }

section Lemmas

variable {s w d : Stem} {c : Tree} {name : String} {k : Nat} {v : Value}

@[simp] theorem next?_item : (s.item k).next? = s.next? := rfl

@[simp] theorem next?_settled : (s.settled k).next? = s.next? := rfl

@[simp] theorem origin_push : (s.push c).origin = s.origin := rfl

@[simp] theorem name_push : (s.push c).name = s.name := rfl

@[simp] theorem tokens_predicted (rule : Rule) (a o : Nat) : (predicted rule a o).tokens = [] := rfl

@[simp] theorem tokens_push : (s.push c).tokens = s.tokens ++ c.tokens := by
  simp [tokens, push]

@[simp] theorem tokens_tree : s.tree.tokens = s.tokens := by
  simp [tree, tokens]

@[simp] theorem home?_eq_none_iff : s.home? k = none ↔ s.origin = k := by
  simp [home?]

theorem home?_of_ne (h : s.origin ≠ k) : s.home? k = some s.origin :=
  if_neg h

theorem wants_iff : s.wants name = true ↔ s.next? = some (.nonterminal name) := by
  unfold wants
  split
  · next h => simp [h]
  · next h =>
    refine ⟨fun hf => by simp at hf, fun hs => ?_⟩
    exact absurd hs (h name)

theorem scans_iff : s.scans = true ↔ ∃ sym, s.next? = some sym ∧ sym.isTerminal = true := by
  unfold scans
  split
  · next h => simp [h]
  · next h => simp [h, Symbol.isTerminal]
  · next sym hne h =>
    refine ⟨fun _ => ⟨sym, h, ?_⟩, fun _ => rfl⟩
    cases sym with
    | nonterminal name => exact absurd rfl (hne name)
    | _ => rfl

theorem wants_of_finished (h : s.next? = none) (name : String) : s.wants name = false := by
  rw [wants, h]

theorem scans_of_finished (h : s.next? = none) : s.scans = false := by
  rw [scans, h]

theorem push_inj {c' : Tree} (h : s.push c = w.push c') : s = w ∧ c = c' := by
  obtain ⟨rule, a, o, cs⟩ := s
  obtain ⟨rule', a', o', cs'⟩ := w
  simp only [push, mk.injEq] at h
  obtain ⟨rfl, rfl, rfl, h⟩ := h
  obtain ⟨rfl, hc⟩ := List.append_inj' h rfl
  exact ⟨rfl, List.singleton_inj.mp hc⟩

theorem push_ne_predicted (rule : Rule) (a o : Nat) : s.push c ≠ predicted rule a o := by
  intro h
  have := congrArg (fun s : Stem => s.children.length) h
  simp [push, predicted] at this

/-- The tree and the column where it begins say what a stem is. -/
theorem tree_inj (h : s.tree = w.tree) (ho : s.origin = w.origin) : s = w := by
  obtain ⟨rule, a, o, cs⟩ := s
  obtain ⟨rule', a', o', cs'⟩ := w
  simp only [tree, Tree.node.injEq] at h
  obtain ⟨rfl, rfl, rfl⟩ := h
  obtain rfl : o = o' := ho
  rfl

/-- A stem that is not finished is pending, before a visit and after it. -/
theorem settled_eq_item (h : s.next? ≠ none) : s.settled k = s.item k := by
  obtain ⟨sym, hsym⟩ := Option.ne_none_iff_exists'.mp h
  simp [settled, outcome, hsym, item]

/-- A stem has a value if its dot is at the end, its name is not inside it without input, and no
reducer refuses. -/
theorem outcome_eq_value_iff :
    s.outcome k = .value v ↔
      s.next? = none ∧ ¬(s.origin = k ∧ s.name ∈ s.nulled k) ∧ s.tree.value? s.origin = some v := by
  unfold outcome
  split
  · next h => simp [h]
  · next h =>
    split
    · next hs => simp [hs]
    · next hs =>
      split
      · next hv => simp [hv]
      · next hv => simp [h, hs, hv]

end Lemmas

end Stem

end Earley
