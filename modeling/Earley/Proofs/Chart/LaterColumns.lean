import Earley.Proofs.Grammar.Cycles

/-!
# Later columns close

A column behind some input closes unless infinitely many stems are to be charted there. The children
of a stem are admissible trees over parts of the input, and in a grammar without cycles over input
there are finitely many of these. So every column of such a grammar closes, whatever the input.

## Main results

* `Stem.finite_derived`: finitely many stems belong in a column
* `Closing.exists_closeFrom`: a column closes if finitely many stems belong in it
* `Chart.Reads.exists_shift`: without cycles over input, every further column closes
-/

namespace Earley

variable {g : Grammar} {input : List Token} {k : Nat}

/-! ## Stems of a column -/

/-- The children of a stem are trees within the input. -/
theorem Stem.Derived.within {s : Stem} (h : s.Derived g input k) :
    List.Forall₂ (Tree.Within g input input.length) (s.rule.symbols.take s.children.length)
      s.children := by
  have hspan : s.tokens <:+: input := by
    have hsuffix : s.tokens <:+ input.take k := ⟨_, h.span.symm⟩
    exact hsuffix.isInfix.trans (List.take_prefix k input).isInfix
  have hall : ∀ c ∈ s.children, c.Admissible ∧ c.tokens <:+: input := by
    intro c hc
    exact ⟨h.admissible c hc, (Tree.infix_of_mem hc).trans hspan⟩
  refine (Tree.forall₂_and_of_forall_mem h.fits hall).imp ?_
  rintro sym c ⟨hfits, hadm, hpart⟩
  exact ⟨hfits, hadm, hpart, hpart.length_le⟩

/-- **Finitely many stems belong in a column**, if the grammar has no cycles over input. -/
theorem Stem.finite_derived (hg : g.CycleFree) (input : List Token) (k : Nat) :
    {s : Stem | s.Derived g input k}.Finite := by
  refine (Stem.finite_of_rows (Tree.finite_within hg input input.length) g k).subset ?_
  intro s hs
  exact ⟨hs.rule, hs.origin_le, hs.within⟩

/-! ## Closing -/

/-- **A column closes if finitely many stems belong in it**: some number of visits is enough, and a
larger bound leads to the same column. -/
theorem Closing.exists_closeFrom {earlier : Array Column} {before : Nat → List Stem}
    {todo : List Stem} {column : Column} (h : Closing g input before k [] todo)
    (htraces : column.Traces g k [] todo) (hback : Backing g input earlier before)
    (hk : earlier.size = k) (hfinite : {s : Stem | s.Derived g input k}.Finite) :
    ∃ closed bound, ∀ fuel, bound ≤ fuel →
      Column.closeFrom g earlier fuel 0 column = some closed := by
  have hsome : Column.closeFrom g earlier hfinite.toFinset.card 0 column ≠ none := by
    intro hnone
    -- the column would come to hold more stems than there are
    obtain ⟨done, todo', hclosing, hlt⟩ := h.exists_of_not_closeFrom htraces hback hk hnone
    have hsub : done ++ todo' ⊆ hfinite.toFinset.toList := by
      intro s hs
      rw [Finset.mem_toList, Set.Finite.mem_toFinset]
      exact (hclosing.charted s hs).derived
    have hle := (List.subperm_of_subset hclosing.nodup hsub).length_le
    rw [Finset.length_toList] at hle
    rw [List.length_nil] at hlt
    omega
  obtain ⟨closed, hclosed⟩ := Option.ne_none_iff_exists'.mp hsome
  exact ⟨closed, _, fun fuel hfuel => Column.closeFrom_mono hclosed hfuel⟩

namespace Chart

variable {chart : Chart}

/-- **Every further column closes**, if the grammar has no cycles over input. -/
theorem Reads.exists_shift (hg : g.CycleFree) (h : Reads g input chart) (t : Token) :
    ∃ next bound, ∀ fuel, bound ≤ fuel → chart.shift g fuel t = some next := by
  -- closing begins with the stems that the token is scanned into, none of which is visited
  obtain ⟨before, todo, hclosing, htraces, hback⟩ :=
    exists_closing_scan h.index_eq h.faithful t
  have hsize : (behind chart t).earlier.size = input.length + 1 := by
    rw [size_earlier, ← h.index_eq]
    rfl
  obtain ⟨closed, bound, hclose⟩ :=
    hclosing.exists_closeFrom htraces hback hsize (Stem.finite_derived hg _ _)
  refine ⟨{ behind chart t with head := closed }, bound, fun fuel hfuel => ?_⟩
  exact Option.map_eq_some_iff.mpr ⟨closed, hclose fuel hfuel, rfl⟩

end Chart

end Earley
