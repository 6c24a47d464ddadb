import Earley.Proofs.Chart.Termination
import Earley.Proofs.Grammar.Language
import Mathlib.Order.WellFoundedSet

/-!
# Grammars without cycles over input

A nonterminal covers another one if some rule of the first holds the second among symbols that may
all be empty: over the same input, a derivation of the first may then be one of the second with
nothing around it. If a name covers itself in this way, by one step or several, and derives any
input at all, then that input has derivations without end. A grammar in which this does not happen
has finitely many admissible trees over any input. Names that derive nothing but the empty form may
cover themselves as they like, since an admissible tree without input repeats no name.

## Main definitions

* `Grammar.Nullable`, `Grammar.Fertile`: the names that derive the empty form, and those that
  derive a form of terminals that is not empty
* `Grammar.Covers`: one name stands for another with nothing around it
* `Grammar.CycleFree`: no fertile name covers itself by any number of steps

## Main results

* `Grammar.CycleFree.wellFounded`: from name to name that they cover, descents end
* `Tree.finite_within`: over a given input a symbol has finitely many admissible trees
-/

namespace Earley

namespace Grammar

/-- **A name that may be empty.** -/
def Nullable (g : Grammar) (name : String) : Prop :=
  g.Derives [.nonterminal name] []

/-- **A name that derives input**: a form of terminals that is not empty. -/
def Fertile (g : Grammar) (name : String) : Prop :=
  ∃ form, form ≠ [] ∧ (∀ s ∈ form, s.isTerminal = true) ∧ g.Derives [.nonterminal name] form

/-- **A name covers another** if a rule of the first holds the second, and all other symbols of the
rule are names that may be empty. -/
def Covers (g : Grammar) (outer inner : String) : Prop :=
  ∃ rule ∈ g.rulesFor outer, ∃ front back, rule.symbols = front ++ .nonterminal inner :: back ∧
    ∀ s ∈ front ++ back, ∃ name, s = .nonterminal name ∧ g.Nullable name

/-- **A grammar without cycles over input**: no name that derives input covers itself, by one step
or several. -/
def CycleFree (g : Grammar) : Prop :=
  ∀ name, g.Fertile name → ¬Relation.TransGen g.Covers name name

/-- One name lies below another: it is covered, derives input, and has rules. -/
def Below (g : Grammar) (inner outer : String) : Prop :=
  g.Covers outer inner ∧ g.Fertile inner ∧ inner ∈ g.rules.map Rule.name

variable {g : Grammar} {name : String}

theorem Covers.mem_names {inner outer : String} (h : g.Covers outer inner) :
    outer ∈ g.rules.map Rule.name := by
  obtain ⟨rule, hrule, -⟩ := h
  obtain ⟨hmem, hname⟩ := List.mem_filter.mp hrule
  exact List.mem_map.mpr ⟨rule, hmem, by simpa using hname⟩

/-- A name below itself would be one that derives input and covers itself. -/
theorem CycleFree.not_transGen_below (h : g.CycleFree) : ¬Relation.TransGen g.Below name name := by
  intro hcycle
  have hfertile : g.Fertile name := by
    obtain ⟨_, hfirst, -⟩ := Relation.TransGen.head'_iff.mp hcycle
    exact hfirst.2.1
  apply h name hfertile
  have hcovers : g.Below ≤ Function.swap g.Covers := fun _ _ hbelow => hbelow.1
  exact Relation.transGen_swap.mp (Relation.TransGen.mono hcovers _ _ hcycle)

/-- **Descents from name to name end**: there are finitely many names of rules, and no descent comes
to a name twice. -/
theorem CycleFree.wellFounded (h : g.CycleFree) : WellFounded g.Below := by
  have hstrict : IsStrictOrder String (Relation.TransGen g.Below) :=
    { irrefl := fun _ => h.not_transGen_below
      trans := fun _ _ _ => Relation.TransGen.trans }
  have hfinite : {name | name ∈ g.rules.map Rule.name}.Finite := List.finite_toSet _
  have hwf := Set.wellFoundedOn_iff.mp (hfinite.wellFoundedOn (r := Relation.TransGen g.Below))
  exact Subrelation.wf (fun hbelow => ⟨.single hbelow, hbelow.2.2, hbelow.1.mem_names⟩) hwf

end Grammar

open Grammar (Covers CycleFree Fertile Nullable)

namespace Tree

variable {g : Grammar} {s : Symbol} {tree c : Tree} {name : String} {rule : Rule} {a n : Nat}
  {children : List Tree} {form : List Symbol} {input : List Token}

/-! ## What trees say about names -/

/-- A symbol with a tree without input is a name that may be empty. -/
theorem Fits.nullable (h : tree.Fits g s) (hempty : tree.tokens = []) :
    ∃ name, s = .nonterminal name ∧ g.Nullable name := by
  obtain ⟨form, hform, htakes⟩ := h.exists_expands
  rw [hempty] at htakes
  cases htakes
  cases h with
  | leaf => exact absurd hempty (by simp)
  | @node rule => exact ⟨rule.name, rfl, hform.derives⟩

/-- A name with a tree over some input derives input. -/
theorem Fits.fertile (h : tree.Fits g (.nonterminal name)) (hne : tree.tokens ≠ []) :
    g.Fertile name := by
  obtain ⟨form, hform, htakes⟩ := h.exists_expands
  refine ⟨form, ?_, ?_, hform.derives⟩
  · rintro rfl
    exact hne (List.forall₂_nil_left_iff.mp htakes)
  · intro s hs
    obtain ⟨i, hi, rfl⟩ := List.getElem_of_mem hs
    exact Symbol.isTerminal_of_accepts (htakes.get hi (htakes.length_eq ▸ hi))

/-- Symbols with trees without input are names that may be empty. -/
theorem nullable_of_row (h : List.Forall₂ (Fits g) form children)
    (hempty : children.flatMap tokens = []) :
    ∀ s ∈ form, ∃ name, s = .nonterminal name ∧ g.Nullable name := by
  induction h with
  | nil => exact fun s hs => absurd hs List.not_mem_nil
  | @cons s c form children hc _ ih =>
    rw [List.flatMap_cons, List.append_eq_nil_iff] at hempty
    intro s' hs'
    rcases List.mem_cons.mp hs' with rfl | hs'
    · exact hc.nullable hempty.1
    · exact ih hempty.2 s' hs'

/-- **A name covers the symbol of a child** that takes all the input of the node. -/
theorem covers_of_getElem? (hrule : (g.rulesFor rule.name)[a]? = some rule)
    (h : List.Forall₂ (Fits g) rule.symbols children) {i : Nat}
    (hs : rule.symbols[i]? = some (.nonterminal name)) (hc : children[i]? = some c)
    (hall : (children.flatMap tokens).length ≤ c.tokens.length) : g.Covers rule.name name := by
  obtain ⟨hi, hs⟩ := List.getElem?_eq_some_iff.mp hs
  obtain ⟨hi', hc⟩ := List.getElem?_eq_some_iff.mp hc
  have hsymbols : rule.symbols.take i ++ .nonterminal name :: rule.symbols.drop (i + 1) =
      rule.symbols := by
    rw [← hs, List.cons_getElem_drop_succ, List.take_append_drop]
  have hchildren : children.take i ++ c :: children.drop (i + 1) = children := by
    rw [← hc, List.cons_getElem_drop_succ, List.take_append_drop]
  -- the children on either side have no input left to take
  have hempty : ((children.take i ++ children.drop (i + 1)).flatMap tokens) = [] := by
    rw [← hchildren] at hall
    simp only [List.flatMap_append, List.flatMap_cons, List.length_append] at hall
    rw [← List.length_eq_zero_iff, List.flatMap_append, List.length_append]
    omega
  have hrow : List.Forall₂ (Fits g) (rule.symbols.take i ++ rule.symbols.drop (i + 1))
      (children.take i ++ children.drop (i + 1)) :=
    List.rel_append (List.forall₂_take i h) (List.forall₂_drop (i + 1) h)
  exact ⟨rule, List.mem_of_getElem? hrule, _, _, hsymbols.symm, nullable_of_row hrow hempty⟩

/-! ## Trees over an input -/

/-- **A tree derives a symbol within an input**, over at most `n` tokens, and is admissible. -/
structure Within (g : Grammar) (input : List Token) (n : Nat) (s : Symbol) (tree : Tree) :
    Prop where
  fits : tree.Fits g s
  admissible : tree.Admissible
  part : tree.tokens <:+: input
  length_le : tree.tokens.length ≤ n

theorem infix_of_mem (h : c ∈ children) : c.tokens <:+: children.flatMap tokens := by
  obtain ⟨front, back, rfl⟩ := List.append_of_mem h
  exact ⟨front.flatMap tokens, back.flatMap tokens, by simp⟩

/-- The children of a node stay within its input. One that takes all of it derives a name that the
name of the node covers. -/
theorem Within.row (h : (node rule a children).Within g input n s) :
    List.Forall₂ (fun s c => c.Within g input n s ∧
      (n ≤ c.tokens.length → ∀ name, s = .nonterminal name → g.Covers rule.name name))
      rule.symbols children := by
  obtain ⟨-, hrule, hfits⟩ := fits_node.mp h.fits
  obtain ⟨-, hadm⟩ := admissible_node.mp h.admissible
  have hpart := h.part
  have hlen := h.length_le
  rw [tokens_node] at hpart hlen
  apply List.forall₂_iff_get.mpr
  refine ⟨hfits.length_eq, fun i hi hi' => ?_⟩
  have hmem : children.get ⟨i, hi'⟩ ∈ children := List.get_mem _ _
  have hinside := infix_of_mem hmem
  refine ⟨⟨hfits.get hi hi', hadm _ hmem, hinside.trans hpart, ?_⟩, ?_⟩
  · exact Nat.le_trans hinside.length_le hlen
  · intro hall name hname
    have hs : rule.symbols[i]? = some (.nonterminal name) := by
      rw [← hname]
      exact List.getElem?_eq_getElem hi
    exact covers_of_getElem? hrule hfits hs (List.getElem?_eq_getElem hi') (Nat.le_trans hlen hall)

/-- A tree over some input is a leaf, or derives a name below which descents end. -/
theorem Fits.leaf_or_fertile (h : c.Fits g s) (hne : c.tokens ≠ []) :
    (∃ t, c = Tree.leaf t) ∨
      ∃ name, s = .nonterminal name ∧ g.Fertile name ∧ name ∈ g.rules.map Rule.name := by
  cases c with
  | leaf t => exact .inl ⟨t, rfl⟩
  | node rule a children =>
    obtain ⟨rfl, hrule, -⟩ := fits_node.mp h
    have hmem : rule ∈ g.rules := List.mem_of_mem_filter (List.mem_of_getElem? hrule)
    exact .inr ⟨rule.name, rfl, h.fertile hne, List.mem_map_of_mem hmem⟩

/-- The children of nodes of a name, over at most one token more than trees are known to be
finitely many for. -/
theorem finite_children (hshort : ∀ s, {c : Tree | c.Within g input n s}.Finite)
    (hbelow : ∀ inner, g.Below inner name →
      {c : Tree | c.Within g input (n + 1) (.nonterminal inner)}.Finite) (s : Symbol) :
    {c : Tree | c.Within g input (n + 1) s ∧
      (n + 1 ≤ c.tokens.length → ∀ inner, s = .nonterminal inner → g.Covers name inner)}.Finite := by
  by_cases hs : ∃ inner, s = .nonterminal inner ∧ g.Below inner name
  · obtain ⟨inner, rfl, hinner⟩ := hs
    exact (hbelow inner hinner).subset fun c hc => hc.1
  · -- nothing lies below, so what is not shorter is a leaf
    have hleaves : (leaf '' {t | t ∈ input}).Finite := (List.finite_toSet input).image leaf
    refine ((hshort s).union hleaves).subset ?_
    rintro c ⟨hc, hcovers⟩
    by_cases hlen : c.tokens.length ≤ n
    · exact .inl ⟨hc.fits, hc.admissible, hc.part, hlen⟩
    · have hne : c.tokens ≠ [] := by
        rintro hnil
        rw [hnil] at hlen
        exact hlen (Nat.zero_le n)
      rcases hc.fits.leaf_or_fertile hne with ⟨t, rfl⟩ | ⟨inner, hname, hfertile, hmem⟩
      · have hpart := hc.part
        rw [tokens_leaf, List.singleton_infix_iff] at hpart
        exact .inr ⟨t, hpart, rfl⟩
      · exact absurd ⟨inner, hname, hcovers (by omega) inner hname, hfertile, hmem⟩ hs

/-- Trees of a name over one token more are finitely many. The induction is on the descents from
name to name, for the children that take all the input of a node. -/
theorem finite_within_name (hcycle : g.CycleFree)
    (hshort : ∀ s, {tree : Tree | tree.Within g input n s}.Finite) (name : String) :
    {tree : Tree | tree.Within g input (n + 1) (.nonterminal name)}.Finite := by
  induction name using hcycle.wellFounded.induction with
  | h name ih =>
    have hnodes := g.finite_alternatives.biUnion fun x _ =>
      (finite_rows (finite_children hshort ih) x.1.symbols).image (node x.1 x.2)
    refine hnodes.subset ?_
    intro tree htree
    cases tree with
    | leaf t => exact absurd (fits_leaf.mp htree.fits) (by simp [Symbol.accepts])
    | node rule a children =>
      obtain ⟨hname, hrule, -⟩ := fits_node.mp htree.fits
      obtain rfl : name = rule.name := by simpa using hname
      exact Set.mem_biUnion (x := (rule, a)) hrule ⟨children, htree.row, rfl⟩

/-- **Over a given input a symbol has finitely many admissible trees**, if the grammar has no cycles
over input. The induction is on the number of tokens. -/
theorem finite_within (hcycle : g.CycleFree) (input : List Token) (n : Nat) (s : Symbol) :
    {tree : Tree | tree.Within g input n s}.Finite := by
  induction n generalizing s with
  | zero =>
    refine (finite_vanishes g s).subset ?_
    intro tree htree
    exact ⟨htree.fits, htree.admissible, List.eq_nil_of_length_eq_zero (by
      have := htree.length_le
      omega)⟩
  | succ n ih =>
    cases s with
    | nonterminal name => exact finite_within_name hcycle ih name
    | _ =>
      -- the trees of a terminal are leaves
      refine ((List.finite_toSet input).image leaf).subset ?_
      intro tree htree
      cases tree with
      | leaf t =>
        have hpart := htree.part
        rw [tokens_leaf, List.singleton_infix_iff] at hpart
        exact ⟨t, hpart, rfl⟩
      | node rule a children => exact absurd (fits_node.mp htree.fits).1 (by simp)

end Tree

end Earley
