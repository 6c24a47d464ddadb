import Earley.Lexer.Prepared
import Earley.Proofs.Parser.Consumption

/-!
# The results of a parser

The results behind an input are the values of its derivation trees, one for each tree. The trees are
those of the start over the whole input that are admissible and in which no reducer refuses.

## Main definitions

* `Tree.Parses`: the trees whose values are the results

## Main results

* `Chart.results_eq`: the results of a chart are the values of the trees of its input
* `Parser.finish_eq`: the same for a parser
-/

namespace Earley

/-- **The trees whose values are results**: admissible trees of the start over the whole input that
have a value. -/
structure Tree.Parses (g : Grammar) (input : List Token) (tree : Tree) : Prop where
  fits : tree.Fits g (.nonterminal g.start)
  tokens : tree.tokens = input
  admissible : tree.Admissible
  valued : ∃ v, tree.value? 0 = some v

namespace Chart

open Stem (Charted)

variable {g : Grammar} {input : List Token} {chart : Chart}

/-- Whether a stem is finished under this name over the whole input. -/
def isFinal (name : String) (k : Nat) (s : Stem) : Bool :=
  decide (s.name = name) && decide (s.origin = 0) && (s.outcome k).value?.isSome

theorem isFinal_iff {name : String} {k : Nat} {s : Stem} :
    isFinal name k s = true ↔ s.name = name ∧ s.origin = 0 ∧ ∃ v, s.outcome k = .value v := by
  simp [isFinal, Option.isSome_iff_exists, Outcome.value?_eq_some, and_assoc]

/-- The trees of the charted stems that are finished over the input are those that parse it. -/
theorem parses_iff {tree : Tree} :
    tree.Parses g input ↔
      ∃ s, s.Charted g input input.length ∧ isFinal g.start input.length s = true ∧
        s.tree = tree := by
  constructor
  · rintro ⟨hfits, htokens, hadm, v, hv⟩
    cases tree with
    | leaf t => exact absurd (Tree.fits_leaf.mp hfits) (by simp [Symbol.accepts])
    | node rule a children =>
      have hname : g.start = rule.name := by simpa using (Tree.fits_node.mp hfits).1
      -- the tree is that of a stem in column 0, where the start is asked for
      obtain ⟨hs, hnext⟩ := Stem.Derived.of_tree (s := ⟨rule, a, 0, children⟩) (k := input.length)
        (hname ▸ hfits) hadm hv (Nat.zero_le _) (Nat.le_refl _)
        (by rw [List.take_length, ← htokens]; simp [Stem.tokens])
      refine ⟨⟨rule, a, 0, children⟩, hs.charted (.inl ⟨rfl, hname.symm⟩), ?_, rfl⟩
      exact isFinal_iff.mpr ⟨hname.symm, rfl, v, (hs.outcome_eq_value_iff hnext).mpr ⟨hadm, hv⟩⟩
  · rintro ⟨s, hs, hfinal, rfl⟩
    obtain ⟨hname, ho, v, hv⟩ := isFinal_iff.mp hfinal
    have hnext : s.next? = none := (Stem.outcome_eq_value_iff.mp hv).1
    obtain ⟨hadm, hvalue⟩ := (hs.derived.outcome_eq_value_iff hnext).mp hv
    refine ⟨hname ▸ hs.derived.fits_tree hnext, ?_, hadm, v, ho ▸ hvalue⟩
    have hspan := hs.derived.span
    rw [List.take_length, ho, List.take_zero, List.nil_append] at hspan
    rw [Stem.tokens_tree, hspan]

/-- The results of a column are the values of its stems that are finished over the whole input. -/
theorem results_of_traces {name : String} {k : Nat} {stems : List Stem}
    (h : chart.head.Traces g k stems []) :
    (chart.results name).map some =
      ((stems.filter (isFinal name k)).map Stem.tree).map (Tree.value? 0) := by
  have hresults : chart.results name =
      (stems.filter (isFinal name k)).filterMap fun s => (s.outcome k).value? := by
    rw [results, h.items, List.map_nil, List.append_nil, List.filterMap_map, List.filterMap_filter]
    -- the test of the items is the test of their stems
    apply List.filterMap_congr
    intro s _
    by_cases hfinal : isFinal name k s = true
    · obtain ⟨hname, ho, v, hv⟩ := isFinal_iff.mp hfinal
      have hcomplete : (s.settled k).isComplete = true := by
        rw [Item.isComplete, Stem.next?_settled, (Stem.outcome_eq_value_iff.mp hv).1]
        rfl
      rw [if_pos hfinal]
      exact if_pos ⟨hname, hcomplete, ho⟩
    · rw [if_neg hfinal]
      refine ite_eq_right_iff.mpr fun hcond => ?_
      by_contra hne
      obtain ⟨v, hv⟩ := Option.ne_none_iff_exists'.mp hne
      exact hfinal (isFinal_iff.mpr ⟨hcond.1, hcond.2.2, v, Outcome.value?_eq_some.mp hv⟩)
  rw [hresults, List.map_filterMap, List.map_map, ← List.filterMap_eq_map]
  apply List.filterMap_congr
  intro s hs
  obtain ⟨-, ho, v, hv⟩ := isFinal_iff.mp (List.mem_filter.mp hs).2
  have hvalue : s.tree.value? 0 = some v := ho ▸ (Stem.outcome_eq_value_iff.mp hv).2.2
  simp [hv, Outcome.value?, hvalue]

/-- **The results of a chart are the values of the trees of its input**, one for each tree. -/
theorem results_eq (h : Reads g input chart) :
    ∃ trees : List Tree, trees.Nodup ∧ (∀ tree, tree ∈ trees ↔ tree.Parses g input) ∧
      (chart.results g.start).map some = trees.map (Tree.value? 0) := by
  obtain ⟨stems, htraces, hnodup, hmem⟩ := h.faithful_head
  refine ⟨(stems.filter (isFinal g.start input.length)).map Stem.tree, ?_, ?_,
    results_of_traces htraces⟩
  · -- the stems all begin in column 0, so their trees tell them apart
    refine List.Nodup.map_on ?_ (hnodup.filter _)
    intro s hs s' hs' heq
    have ho := (isFinal_iff.mp (List.mem_filter.mp hs).2).2.1
    have ho' := (isFinal_iff.mp (List.mem_filter.mp hs').2).2.1
    exact Stem.tree_inj heq (ho.trans ho'.symm)
  · intro tree
    rw [parses_iff, List.mem_map]
    refine exists_congr fun s => ?_
    rw [List.mem_filter, hmem, and_assoc]

end Chart

namespace Parser

variable {Chunk Mark : Type} {lexer : Lexer Chunk Mark} {g : Grammar} {input : List Token}
  {p : Parser lexer}

/-- **The results of a parser are the values of the trees of its input**: of the tokens it has
taken, the latest chunk not having been refused. Each tree has one result. -/
theorem finish_eq (h : p.Consumed g input) (hopen : p.blocked = false) :
    ∃ trees : List Tree, trees.Nodup ∧ (∀ tree, tree ∈ trees ↔ tree.Parses g input) ∧
      p.finish.map some = trees.map (Tree.value? 0) := by
  obtain ⟨hg, hreads⟩ := h.reads
  have hfinish : p.finish = p.head.chart.results g.start := by
    rw [finish, hopen, hg]
    rfl
  rw [hfinish]
  exact Chart.results_eq hreads

/-- Two letters that may be left out, behind a padding that may be doubled without end. A letter by
itself is refused. -/
def optionalPair : Grammar where
  start := "S"
  rules :=
    [{ name := "S", symbols := [.nonterminal "N", .nonterminal "A", .nonterminal "A"] },
     { name := "S", symbols := [.literal "a" false], reduce := fun _ _ => none },
     { name := "N", symbols := [] },
     { name := "N", symbols := [.nonterminal "N", .nonterminal "N"] },
     { name := "A", symbols := [] },
     { name := "A", symbols := [.literal "a" false] }]

/-- One letter is the first of the two or the second. -/
theorem finish_optionalPair :
    ∃ p : Parser prepared, p.Consumed optionalPair [{ value := "a" }] ∧ p.blocked = false ∧
      p.finish.length = 2 ∧ ∃ trees : List Tree, trees.Nodup ∧
        (∀ tree, tree ∈ trees ↔ tree.Parses optionalPair [{ value := "a" }]) ∧
          p.finish.map some = trees.map (Tree.value? 0) := by
  have hrun : ((start prepared optionalPair false 30).bind fun p =>
      p.feed 30 [.ok { value := "a" }]).any (fun fed =>
        fed.error.isNone && fed.parser.finish.length == 2) = true := by decide
  obtain ⟨fed, hfed, hresult⟩ := (Option.any_eq_true _ _).mp hrun
  obtain ⟨p, hp, hfeed⟩ := Option.bind_eq_some_iff.mp hfed
  have hresult : fed.error = none ∧ fed.parser.finish.length = 2 := by simpa using hresult
  obtain ⟨hconsumed, hopen⟩ := (consumed_of_start hp).of_error_eq_none hfeed hresult.1
  exact ⟨fed.parser, hconsumed, hopen, hresult.2, finish_eq hconsumed hopen⟩

end Parser

end Earley
