import Earley.Proofs.Chart.Reading
import Mathlib.Data.Finite.Prod
import Mathlib.Data.Finset.Card
import Mathlib.Data.Set.Finite.Lattice

/-!
# Column 0 closes

Visits in column 0 add items without end only if there are infinitely many stems to be charted
there. A stem in column 0 has taken no input, and an admissible tree without input has no name twice
on a path from its root. So there are finitely many such trees: below a node its name is spent, and
the names of a grammar are finitely many.

## Main definitions

* `Tree.Vanishes`: the admissible trees of a symbol without input

## Main results

* `Tree.finite_vanishes`: a symbol has finitely many admissible trees without input
* `Stem.finite_derived_nil`: finitely many stems belong in column 0
* `Chart.exists_initial`: column 0 closes, whatever the grammar
-/

namespace Earley

variable {g : Grammar} {s : Symbol} {tree : Tree}

/-- The alternatives of a grammar, with their numbers, are finitely many. -/
theorem Grammar.finite_alternatives (g : Grammar) :
    {x : Rule × Nat | (g.rulesFor x.1.name)[x.2]? = some x.1}.Finite := by
  have hrules : {rule | rule ∈ g.rules}.Finite := List.finite_toSet g.rules
  refine (hrules.prod (Set.finite_lt_nat g.rules.length)).subset ?_
  rintro ⟨rule, a⟩ hrule
  obtain ⟨hlt, -⟩ := List.getElem?_eq_some_iff.mp hrule
  refine ⟨List.mem_of_mem_filter (List.mem_of_getElem? hrule), ?_⟩
  exact Nat.lt_of_lt_of_le hlt (List.length_filter_le _ _)

/-! ## Trees without input -/

namespace Tree

/-- The names at the nodes of a tree are names of rules. -/
theorem Fits.names_subset (h : tree.Fits g s) : ∀ n ∈ tree.names, n ∈ g.rules.map Rule.name := by
  induction h using Fits.induction with
  | leaf s t => simp
  | node rule a children hrule _ ih =>
    intro n hn
    rw [names_node] at hn
    rcases List.mem_cons.mp hn with rfl | hn
    · exact List.mem_map_of_mem (List.mem_of_mem_filter (List.mem_of_getElem? hrule))
    · obtain ⟨c, hc, hn⟩ := List.mem_flatMap.mp hn
      obtain ⟨-, -, -, hnames⟩ := exists_of_mem_children ih hc
      exact hnames n hn

/-- **A tree derives a symbol without input**, and is admissible. -/
structure Vanishes (g : Grammar) (s : Symbol) (tree : Tree) : Prop where
  fits : tree.Fits g s
  admissible : tree.Admissible
  tokens : tree.tokens = []

/-- Rows of trees are finitely many if the trees of each symbol are. -/
theorem finite_rows {R : Symbol → Tree → Prop} (h : ∀ s, {c | R s c}.Finite)
    (symbols : List Symbol) : {children | List.Forall₂ R symbols children}.Finite := by
  induction symbols with
  | nil =>
    refine (Set.finite_singleton []).subset ?_
    intro children hchildren
    exact List.forall₂_nil_left_iff.mp hchildren
  | cons s symbols ih =>
    refine (((h s).prod ih).image fun x => x.1 :: x.2).subset ?_
    intro children hchildren
    obtain ⟨c, rest, hc, hrest, rfl⟩ := List.forall₂_cons_left_iff.mp hchildren
    exact ⟨(c, rest), ⟨hc, hrest⟩, rfl⟩

/-- Below a node without input are trees without input that do not have its name. -/
theorem Vanishes.children {rule : Rule} {a : Nat} {children : List Tree}
    (h : (node rule a children).Vanishes g s) :
    List.Forall₂ (fun s c => c.Vanishes g s ∧ rule.name ∉ c.names) rule.symbols children := by
  obtain ⟨-, -, hfits⟩ := fits_node.mp h.fits
  obtain ⟨hnames, hadm⟩ := admissible_node.mp h.admissible
  have hempty : children.flatMap Tree.tokens = [] := by
    rw [← tokens_node rule a children, h.tokens]
  have hall : ∀ c ∈ children, c.Admissible ∧ c.tokens = [] ∧ rule.name ∉ c.names := by
    intro c hc
    refine ⟨hadm c hc, List.flatMap_eq_nil_iff.mp hempty c hc, fun hmem => ?_⟩
    exact hnames hempty (List.mem_flatMap.mpr ⟨c, hc, hmem⟩)
  refine (forall₂_and_of_forall_mem hfits hall).imp ?_
  rintro s c ⟨hfits, hadm, htokens, hname⟩
  exact ⟨⟨hfits, hadm, htokens⟩, hname⟩

/-- A symbol has finitely many admissible trees without input whose names are among finitely many.
The induction is on these names, of which the root takes one away. -/
theorem finite_vanishes_within (g : Grammar) (allowed : Finset String) (s : Symbol) :
    {tree : Tree | tree.Vanishes g s ∧ ∀ n ∈ tree.names, n ∈ allowed}.Finite := by
  induction allowed using Finset.strongInduction generalizing s with
  | H allowed ih =>
    have hroots : {x : Rule × Nat | (g.rulesFor x.1.name)[x.2]? = some x.1 ∧
        x.1.name ∈ allowed}.Finite := g.finite_alternatives.subset fun _ hx => hx.1
    -- below a root of this name are the trees over the other names
    have hnodes := hroots.biUnion fun x hx =>
      (finite_rows (ih (allowed.erase x.1.name) (Finset.erase_ssubset hx.2))
        x.1.symbols).image (node x.1 x.2)
    refine hnodes.subset ?_
    rintro tree ⟨htree, hnames⟩
    cases tree with
    | leaf t => exact absurd htree.tokens (by simp)
    | node rule a children =>
      obtain ⟨-, hrule, -⟩ := fits_node.mp htree.fits
      simp only [names_node, List.mem_cons, forall_eq_or_imp] at hnames
      obtain ⟨hroot, hbelow⟩ := hnames
      refine Set.mem_biUnion (x := (rule, a)) ⟨hrule, hroot⟩ ⟨children, ?_, rfl⟩
      have hinside : ∀ c ∈ children, ∀ n ∈ c.names, n ∈ allowed :=
        fun c hc n hn => hbelow n (List.mem_flatMap.mpr ⟨c, hc, hn⟩)
      refine (forall₂_and_of_forall_mem htree.children hinside).imp ?_
      rintro s c ⟨⟨hc, hname⟩, hinside⟩
      refine ⟨hc, fun n hn => Finset.mem_erase.mpr ⟨?_, hinside n hn⟩⟩
      rintro rfl
      exact hname hn

/-- **A symbol has finitely many admissible trees without input.** -/
theorem finite_vanishes (g : Grammar) (s : Symbol) : {tree : Tree | tree.Vanishes g s}.Finite := by
  refine (finite_vanishes_within g (g.rules.map Rule.name).toFinset s).subset ?_
  intro tree htree
  exact ⟨htree, fun n hn => List.mem_toFinset.mpr (htree.fits.names_subset n hn)⟩

end Tree

/-! ## Stems without input -/

/-- The children of a stem in column 0 have no input. -/
theorem Stem.Derived.vanishes {s : Stem} (h : s.Derived g [] 0) :
    List.Forall₂ (Tree.Vanishes g) (s.rule.symbols.take s.children.length) s.children := by
  have hempty : s.children.flatMap Tree.tokens = [] := by
    rw [← List.length_eq_zero_iff]
    have := h.origin_add_length
    exact Nat.eq_zero_of_add_eq_zero_left this
  have hall : ∀ c ∈ s.children, c.Admissible ∧ c.tokens = [] :=
    fun c hc => ⟨h.admissible c hc, List.flatMap_eq_nil_iff.mp hempty c hc⟩
  refine (Tree.forall₂_and_of_forall_mem h.fits hall).imp ?_
  rintro sym c ⟨hfits, hadm, htokens⟩
  exact ⟨hfits, hadm, htokens⟩

/-- Stems up to a column are finitely many if the trees of each symbol are that their children may
be. -/
theorem Stem.finite_of_rows {R : Symbol → Tree → Prop} (hR : ∀ s, {c | R s c}.Finite) (g : Grammar)
    (k : Nat) :
    {s : Stem | (g.rulesFor s.name)[s.alternative]? = some s.rule ∧ s.origin ≤ k ∧
      List.Forall₂ R (s.rule.symbols.take s.children.length) s.children}.Finite := by
  have hstems := g.finite_alternatives.biUnion fun x _ =>
    (Set.finite_le_nat k).biUnion fun origin _ =>
      (Set.finite_le_nat x.1.symbols.length).biUnion fun n _ =>
        (Tree.finite_rows hR (x.1.symbols.take n)).image (Stem.mk x.1 x.2 origin)
  refine hstems.subset ?_
  rintro ⟨rule, a, origin, children⟩ ⟨hrule, horigin, hrow⟩
  have hlen : children.length ≤ rule.symbols.length := by
    have hlen := hrow.length_eq
    rw [List.length_take] at hlen
    exact hlen ▸ Nat.min_le_right _ _
  refine Set.mem_biUnion (x := (rule, a)) hrule ?_
  refine Set.mem_biUnion (x := origin) horigin ?_
  exact Set.mem_biUnion (x := children.length) hlen ⟨children, hrow, rfl⟩

/-- **Finitely many stems belong in column 0.** -/
theorem Stem.finite_derived_nil (g : Grammar) : {s : Stem | s.Derived g [] 0}.Finite := by
  refine (Stem.finite_of_rows (Tree.finite_vanishes g) g 0).subset ?_
  intro s hs
  exact ⟨hs.rule, hs.origin_le, hs.vanishes⟩

/-! ## Column 0 -/

/-- **Column 0 closes, whatever the grammar**: some number of visits is enough, and a larger bound
leads to the same chart. -/
theorem Chart.exists_initial (g : Grammar) :
    ∃ chart bound, ∀ fuel, bound ≤ fuel → Chart.initial g fuel = some chart := by
  have hfinite := Stem.finite_derived_nil g
  have hsome : Chart.initial g hfinite.toFinset.card ≠ none := by
    intro hnone
    -- the column would hold more stems than there are
    obtain ⟨stems, hnodup, hcharted, hlt⟩ := exists_of_not_initial hnone
    have hsub : stems ⊆ hfinite.toFinset.toList := by
      intro s hs
      rw [Finset.mem_toList, Set.Finite.mem_toFinset]
      exact (hcharted s hs).derived
    have hle := (List.subperm_of_subset hnodup hsub).length_le
    rw [Finset.length_toList] at hle
    omega
  obtain ⟨chart, hchart⟩ := Option.ne_none_iff_exists'.mp hsome
  exact ⟨chart, _, fun fuel hfuel => close_mono hchart hfuel⟩

end Earley
