import Earley.Grammar.Basic
import Mathlib.Data.List.Forall2
import Mathlib.Data.List.Induction

/-!
# Derivation trees

A derivation tree says how a nonterminal comes to a stretch of input. A leaf is a token; a node is
an alternative of a nonterminal with one tree for each symbol of its right side. Alternatives are
told apart by their number, so that a rule given twice makes two trees.

The value of a tree depends on the column in which it begins, and it has none if some reducer inside
refuses. A tree is admissible if no derivation without input repeats its own name inside itself.

## Main definitions

* `Tree`: derivation trees
* `Tree.tokens`, `Tree.names`: the tokens at the leaves and the names at the nodes
* `Tree.Fits`: whether a tree derives a symbol
* `Tree.value?`: the value of a tree that begins in a given column
* `Tree.Admissible`: whether no derivation without input repeats its name

## Main results

* `Tree.mem_labels`: the names that items keep are the names inside a tree
* `Tree.values?_append`: values of a row of trees, one part after the other
-/

namespace Earley

/-- An alternative of a name has that name. -/
theorem Grammar.name_of_rulesFor {g : Grammar} {name : String} {a : Nat} {rule : Rule}
    (h : (g.rulesFor name)[a]? = some rule) : rule.name = name := by
  have hmem : rule ∈ g.rules.filter (·.name == name) := List.mem_of_getElem? h
  simpa using (List.mem_filter.mp hmem).2

/-- **Derivation trees.** A node stands for the alternative of this number among those that the
name of its rule has. -/
inductive Tree where
  | leaf (t : Token)
  | node (rule : Rule) (alternative : Nat) (children : List Tree)

namespace Tree

/-- What holds of leaves, and of a node if it holds of its children, holds of every tree. -/
@[elab_as_elim, induction_eliminator]
theorem induction {motive : Tree → Prop} (leaf : ∀ t, motive (leaf t))
    (node : ∀ rule alternative children, (∀ c ∈ children, motive c) →
      motive (node rule alternative children)) : ∀ tree, motive tree
  | .leaf t => leaf t
  | .node rule alternative children =>
    node rule alternative children fun c _ => induction leaf node c

/-! ## Tokens and names -/

/-- **The tokens at the leaves** of a tree, in order. -/
def tokens : Tree → List Token
  | leaf t => [t]
  | node _ _ children => children.flatMap tokens

/-- **The names at the nodes** of a tree. -/
def names : Tree → List String
  | leaf _ => []
  | node rule _ children => rule.name :: children.flatMap names

/-- The names at the nodes of a tree in the order in which items keep them, that of the root apart
each once. -/
def labels : Tree → List String
  | leaf _ => []
  | node rule _ children =>
    rule.name :: children.foldl (fun kept c => (labels c).foldr List.insert kept) []

/-- The names that an item keeps whose children are these trees. -/
def keptNames (children : List Tree) : List String :=
  children.foldl (fun kept c => (labels c).foldr List.insert kept) []

@[simp] theorem tokens_leaf (t : Token) : (leaf t).tokens = [t] := by rw [tokens]

@[simp] theorem tokens_node (rule : Rule) (alternative : Nat) (children : List Tree) :
    (node rule alternative children).tokens = children.flatMap tokens := by rw [tokens]

@[simp] theorem names_leaf (t : Token) : (leaf t).names = [] := by rw [names]

@[simp] theorem names_node (rule : Rule) (alternative : Nat) (children : List Tree) :
    (node rule alternative children).names = rule.name :: children.flatMap names := by rw [names]

theorem labels_node (rule : Rule) (alternative : Nat) (children : List Tree) :
    (node rule alternative children).labels = rule.name :: keptNames children := by
  rw [labels, keptNames]

@[simp] theorem keptNames_nil : keptNames [] = [] := rfl

theorem keptNames_concat (children : List Tree) (c : Tree) :
    keptNames (children ++ [c]) = c.labels.foldr List.insert (keptNames children) := by
  simp [keptNames]

theorem mem_foldr_insert {x : String} {names kept : List String} :
    x ∈ names.foldr List.insert kept ↔ x ∈ names ∨ x ∈ kept := by
  induction names with
  | nil => simp
  | cons name names ih => simp [ih, or_assoc]

/-- Names are kept of a row of trees if they are kept of one of them. -/
theorem mem_keptNames_labels {x : String} {children : List Tree} :
    x ∈ keptNames children ↔ ∃ c ∈ children, x ∈ c.labels := by
  induction children using List.reverseRecOn with
  | nil => simp
  | append_singleton children c ih =>
    rw [keptNames_concat, mem_foldr_insert, ih]
    simp [or_comm, or_and_right, exists_or]

/-- **The names kept are the names inside.** -/
theorem mem_labels {x : String} (tree : Tree) : x ∈ tree.labels ↔ x ∈ tree.names := by
  induction tree with
  | leaf t => simp [labels]
  | node rule alternative children ih =>
    rw [labels_node, names_node, List.mem_cons, List.mem_cons, mem_keptNames_labels,
      List.mem_flatMap]
    refine or_congr_right (exists_congr fun c => ?_)
    exact and_congr_right fun hc => ih c hc

/-- The names kept of a row of trees are the names inside them. -/
theorem mem_keptNames {x : String} {children : List Tree} :
    x ∈ keptNames children ↔ x ∈ children.flatMap names := by
  simp [mem_keptNames_labels, mem_labels]

/-! ## Trees of a symbol -/

/-- **A tree derives a symbol**: a token that the symbol takes, or an alternative of its name with
trees that derive the symbols of the right side. -/
inductive Fits (g : Grammar) : Symbol → Tree → Prop
  | leaf {s : Symbol} {t : Token} (haccepts : s.accepts t = true) : Fits g s (leaf t)
  | node {rule : Rule} {alternative : Nat} {children : List Tree}
      (hrule : (g.rulesFor rule.name)[alternative]? = some rule)
      (hchildren : List.Forall₂ (Fits g) rule.symbols children) :
      Fits g (.nonterminal rule.name) (node rule alternative children)

theorem fits_leaf {g : Grammar} {s : Symbol} {t : Token} :
    (leaf t).Fits g s ↔ s.accepts t = true := by
  constructor
  · intro h
    cases h with
    | leaf haccepts => exact haccepts
  · exact .leaf

theorem fits_node {g : Grammar} {s : Symbol} {rule : Rule} {alternative : Nat}
    {children : List Tree} :
    (node rule alternative children).Fits g s ↔
      s = .nonterminal rule.name ∧ (g.rulesFor rule.name)[alternative]? = some rule ∧
        List.Forall₂ (Fits g) rule.symbols children := by
  constructor
  · intro h
    cases h with
    | node hrule hchildren => exact ⟨rfl, hrule, hchildren⟩
  · rintro ⟨rfl, hrule, hchildren⟩
    exact .node hrule hchildren

/-- Each tree of a row stands below a symbol. -/
theorem exists_of_mem_children {R : Symbol → Tree → Prop} {symbols : List Symbol}
    {children : List Tree} (h : List.Forall₂ R symbols children) {c : Tree} (hc : c ∈ children) :
    ∃ s ∈ symbols, R s c := by
  induction h with
  | nil => exact absurd hc List.not_mem_nil
  | @cons s c' symbols children hfirst _ ih =>
    rcases List.mem_cons.mp hc with rfl | hc
    · exact ⟨s, List.mem_cons_self, hfirst⟩
    · obtain ⟨s', hs', hrest⟩ := ih hc
      exact ⟨s', List.mem_cons_of_mem s hs', hrest⟩

/-- A row of trees keeps what holds of each tree by itself. -/
theorem forall₂_and_of_forall_mem {R : Symbol → Tree → Prop} {P : Tree → Prop}
    {symbols : List Symbol} {children : List Tree} (h : List.Forall₂ R symbols children)
    (hall : ∀ c ∈ children, P c) : List.Forall₂ (fun s c => R s c ∧ P c) symbols children := by
  induction h with
  | nil => exact .nil
  | @cons s c symbols children hfirst _ ih =>
    refine .cons ⟨hfirst, hall c List.mem_cons_self⟩ (ih fun c' hc' => ?_)
    exact hall c' (List.mem_cons_of_mem c hc')

/-- What holds of leaves, and of a node if it holds of its children and their symbols, holds of
every tree and the symbol that it derives. -/
@[elab_as_elim]
theorem Fits.induction {g : Grammar} {motive : ∀ (s : Symbol) (tree : Tree), tree.Fits g s → Prop}
    (leaf : ∀ (s : Symbol) (t : Token) (haccepts : s.accepts t = true),
      motive s (.leaf t) (.leaf haccepts))
    (node : ∀ (rule : Rule) (a : Nat) (children : List Tree)
      (hrule : (g.rulesFor rule.name)[a]? = some rule)
      (hchildren : List.Forall₂ (Fits g) rule.symbols children),
      List.Forall₂ (fun s c => ∃ h : c.Fits g s, motive s c h) rule.symbols children →
      motive (.nonterminal rule.name) (.node rule a children) (.node hrule hchildren))
    {s : Symbol} {tree : Tree} (h : tree.Fits g s) : motive s tree h := by
  induction tree generalizing s with
  | leaf t => exact leaf s t (fits_leaf.mp h)
  | node rule a children ih =>
    obtain ⟨rfl, hrule, hchildren⟩ := fits_node.mp h
    refine node rule a children hrule hchildren ?_
    -- the children go along with the symbols of the right side, whatever these are
    generalize rule.symbols = symbols at hchildren
    clear h hrule
    induction hchildren with
    | nil => exact .nil
    | @cons s c symbols children hc _ ihrow =>
      refine .cons ⟨hc, ih c List.mem_cons_self hc⟩ (ihrow fun c' hc' => ?_)
      exact ih c' (List.mem_cons_of_mem c hc')

/-- **A tree is admissible** if no node without input has its own name again at a node below. -/
def Admissible : Tree → Prop
  | leaf _ => True
  | node rule _ children =>
    (children.flatMap tokens = [] → rule.name ∉ children.flatMap names) ∧
      ∀ c ∈ children, Admissible c

@[simp] theorem admissible_leaf (t : Token) : (leaf t).Admissible := by
  rw [Admissible]
  trivial

theorem admissible_node {rule : Rule} {alternative : Nat} {children : List Tree} :
    (node rule alternative children).Admissible ↔
      (children.flatMap tokens = [] → rule.name ∉ children.flatMap names) ∧
        ∀ c ∈ children, c.Admissible := by
  rw [Admissible]

/-! ## Values -/

mutual

/-- **The value of a tree** that begins in the given column, if no reducer refuses. -/
def value? : Nat → Tree → Option Value
  | _, leaf t => some (.token t)
  | origin, node rule _ children =>
    (values? origin children).bind fun vs => rule.reduce vs origin

/-- The values of trees that stand one behind the other from the given column on. -/
def values? : Nat → List Tree → Option (List Value)
  | _, [] => some []
  | origin, c :: rest =>
    (value? origin c).bind fun v => (values? (origin + c.tokens.length) rest).map (v :: ·)

end

@[simp] theorem value?_leaf (origin : Nat) (t : Token) :
    (leaf t).value? origin = some (.token t) := rfl

theorem value?_node (origin : Nat) (rule : Rule) (alternative : Nat) (children : List Tree) :
    (node rule alternative children).value? origin =
      (values? origin children).bind fun vs => rule.reduce vs origin := rfl

@[simp] theorem values?_nil (origin : Nat) : values? origin [] = some [] := rfl

theorem values?_cons (origin : Nat) (c : Tree) (rest : List Tree) :
    values? origin (c :: rest) =
      (c.value? origin).bind fun v =>
        (values? (origin + c.tokens.length) rest).map (v :: ·) := rfl

/-- **Values of a row of trees**: those of its first part, then those of the rest from where the
first part ends. -/
theorem values?_append (origin : Nat) (front rest : List Tree) :
    values? origin (front ++ rest) =
      (values? origin front).bind fun vs =>
        (values? (origin + (front.flatMap tokens).length) rest).map (vs ++ ·) := by
  induction front generalizing origin with
  | nil => simp
  | cons c front ih =>
    rw [List.cons_append, values?_cons, values?_cons, ih]
    cases c.value? origin with
    | none => rfl
    | some v =>
      -- the rest begins where the first tree and those of the front have ended
      simp only [Option.bind_some, List.flatMap_cons, List.length_append, ← Nat.add_assoc]
      cases values? (origin + c.tokens.length) front with
      | none => rfl
      | some vs => simp [Function.comp_def]

theorem values?_concat (origin : Nat) (front : List Tree) (c : Tree) :
    values? origin (front ++ [c]) =
      (values? origin front).bind fun vs =>
        (c.value? (origin + (front.flatMap tokens).length)).map fun v => vs ++ [v] := by
  rw [values?_append, values?_cons]
  cases values? origin front with
  | none => rfl
  | some vs =>
    cases c.value? (origin + (front.flatMap tokens).length) <;> simp

/-- There is a value for each tree of a row. -/
theorem length_of_values? {origin : Nat} {trees : List Tree} {vs : List Value}
    (h : values? origin trees = some vs) : vs.length = trees.length := by
  induction trees generalizing origin vs with
  | nil =>
    obtain rfl := Option.some.inj h
    rfl
  | cons c rest ih =>
    rw [values?_cons] at h
    obtain ⟨v, -, h⟩ := Option.bind_eq_some_iff.mp h
    obtain ⟨later, hlater, rfl⟩ := Option.map_eq_some_iff.mp h
    rw [List.length_cons, List.length_cons, ih hlater]

end Tree

end Earley
