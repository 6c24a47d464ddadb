import Earley.Proofs.Chart.Stem

/-!
# Charted stems

Which stems belong in which column is said twice. `Charted` says it by the steps that lead to a
stem, as in a system of inference rules: the start is predicted in column 0, a stem in front of a
nonterminal predicts its rules, and stems move over tokens and over finished stems. `Derived` says
it without steps: the children derive the symbols before the dot over the input between two columns.
A stem is charted exactly if it is derived and its name is asked for in the column where it begins.

## Main definitions

* `Stem.Charted`: the stems that the steps lead to
* `Stem.Asked`: the names that are asked for in a column
* `Stem.Derived`: the stems whose children derive a stretch of input

## Main results

* `Stem.Derived.outcome_eq_value_iff`: a finished stem has a value if its tree is admissible and has
  one
* `Stem.Charted.derived`, `Stem.Charted.asked`: what the steps lead to is derived and asked for
* `Stem.Derived.charted`: the steps lead to all of that
* `Stem.charted_append`: later tokens change nothing in the earlier columns
-/

namespace Earley

namespace Stem

/-! ## Stems by steps -/

/-- **The stems that the steps lead to**, by column: what belongs in the chart of an input. -/
inductive Charted (g : Grammar) (input : List Token) : Nat → Stem → Prop
  /-- The start is predicted in column 0. -/
  | start {rule : Rule} {a : Nat} (hrule : (g.rulesFor g.start)[a]? = some rule) :
      Charted g input 0 (predicted rule a 0)
  /-- A stem in front of a nonterminal predicts its rules. -/
  | predict {k : Nat} {w : Stem} {name : String} {rule : Rule} {a : Nat}
      (hw : Charted g input k w) (hnext : w.next? = some (.nonterminal name))
      (hrule : (g.rulesFor name)[a]? = some rule) : Charted g input k (predicted rule a k)
  /-- A stem moves over a token. -/
  | scan {k : Nat} {w : Stem} {s : Symbol} {t : Token}
      (hw : Charted g input k w) (hnext : w.next? = some s) (htoken : input[k]? = some t)
      (haccepts : s.accepts t = true) : Charted g input (k + 1) (w.push (.leaf t))
  /-- A stem moves over a stem that is finished with a value. -/
  | complete {k : Nat} {w d : Stem} {v : Value}
      (hw : Charted g input d.origin w) (hnext : w.next? = some (.nonterminal d.name))
      (hd : Charted g input k d) (hvalue : d.outcome k = .value v) :
      Charted g input k (w.push d.tree)

/-- **The names that are asked for in a column.** -/
def Asked (g : Grammar) (input : List Token) (k : Nat) (name : String) : Prop :=
  (k = 0 ∧ name = g.start) ∨
    ∃ w, Charted g input k w ∧ w.next? = some (.nonterminal name)

/-! ## Stems without steps -/

/-- **A stem is derived** in a column if its children derive the symbols before its dot over the
input from the column where it begins, and are admissible and have values. -/
structure Derived (g : Grammar) (input : List Token) (k : Nat) (s : Stem) : Prop where
  rule : (g.rulesFor s.name)[s.alternative]? = some s.rule
  fits : List.Forall₂ (Tree.Fits g) (s.rule.symbols.take s.children.length) s.children
  admissible : ∀ c ∈ s.children, c.Admissible
  valued : ∃ vs, Tree.values? s.origin s.children = some vs
  origin_le : s.origin ≤ k
  le_length : k ≤ input.length
  span : input.take k = input.take s.origin ++ s.tokens

section Derived

variable {g : Grammar} {input : List Token} {k m : Nat} {s w d : Stem} {v : Value}

namespace Derived

/-- The tokens of a stem fill the input between its two columns. -/
theorem origin_add_length (h : s.Derived g input k) : s.origin + s.tokens.length = k := by
  have hlen := congrArg List.length h.span
  simp only [List.length_append, List.length_take] at hlen
  have := h.origin_le
  have := h.le_length
  omega

/-- A stem has taken no input exactly if it begins in its column. -/
theorem tokens_eq_nil_iff (h : s.Derived g input k) : s.tokens = [] ↔ s.origin = k := by
  have := h.origin_add_length
  rw [← List.length_eq_zero_iff]
  omega

/-- No stem has more children than its rule has symbols. -/
theorem length_children_le (h : s.Derived g input k) :
    s.children.length ≤ s.rule.symbols.length := by
  have := h.fits.length_eq
  rw [List.length_take] at this
  omega

/-- The children of a finished stem derive the whole right side of its rule. -/
theorem fits_of_finished (h : s.Derived g input k) (hnext : s.next? = none) :
    List.Forall₂ (Tree.Fits g) s.rule.symbols s.children := by
  have hfits := h.fits
  rwa [List.take_of_length_le (List.getElem?_eq_none_iff.mp hnext)] at hfits

/-- The tree of a finished stem derives its name. -/
theorem fits_tree (h : s.Derived g input k) (hnext : s.next? = none) :
    s.tree.Fits g (.nonterminal s.name) :=
  .node h.rule (h.fits_of_finished hnext)

/-- **A finished stem has a value** exactly if its tree is admissible and has that value. -/
theorem outcome_eq_value_iff (h : s.Derived g input k) (hnext : s.next? = none) :
    s.outcome k = .value v ↔ s.tree.Admissible ∧ s.tree.value? s.origin = some v := by
  -- without input the names kept are those inside, and with input no name is kept
  have hnulled : s.origin = k → (s.name ∈ s.nulled k ↔ s.name ∈ s.children.flatMap Tree.names) := by
    intro ho
    rw [nulled, if_pos ho, Tree.mem_keptNames]
  have hadm : s.tree.Admissible ↔ ¬(s.origin = k ∧ s.name ∈ s.nulled k) := by
    rw [tree, Tree.admissible_node, and_iff_left h.admissible, not_and]
    constructor
    · intro hne ho hmem
      exact hne (h.tokens_eq_nil_iff.mpr ho) ((hnulled ho).mp hmem)
    · intro hne ht hmem
      have ho := h.tokens_eq_nil_iff.mp ht
      exact hne ho ((hnulled ho).mpr hmem)
  rw [Stem.outcome_eq_value_iff, and_iff_right hnext, hadm]

/-- A rule at its beginning is derived. -/
theorem predicted {rule : Rule} {a : Nat} {name : String} (hk : k ≤ input.length)
    (hrule : (g.rulesFor name)[a]? = some rule) : (predicted rule a k).Derived g input k where
  rule := by
    rw [← Grammar.name_of_rulesFor hrule] at hrule
    exact hrule
  fits := .nil
  admissible := fun c hc => absurd hc List.not_mem_nil
  valued := ⟨[], rfl⟩
  origin_le := Nat.le_refl k
  le_length := hk
  span := (List.append_nil _).symm

/-- **A derived stem moves over a tree** of the symbol behind its dot. -/
theorem push {c : Tree} {sym : Symbol} (h : w.Derived g input m) (hnext : w.next? = some sym)
    (hfits : c.Fits g sym) (hadm : c.Admissible) (hv : c.value? m = some v) (hle : m ≤ k)
    (hk : k ≤ input.length) (hspan : input.take k = input.take m ++ c.tokens) :
    (w.push c).Derived g input k where
  rule := h.rule
  fits := by
    have htake : w.rule.symbols.take (w.children ++ [c]).length =
        w.rule.symbols.take w.children.length ++ [sym] := by
      rw [List.length_append, List.length_singleton, List.take_add_one,
        show w.rule.symbols[w.children.length]? = some sym from hnext, Option.toList_some]
    rw [Stem.push, htake]
    exact List.rel_append h.fits (.cons hfits .nil)
  admissible := by
    intro c' hc'
    rcases List.mem_append.mp hc' with hold | hnew
    · exact h.admissible c' hold
    · exact List.mem_singleton.mp hnew ▸ hadm
  valued := by
    obtain ⟨vs, hvs⟩ := h.valued
    have hm : w.origin + (w.children.flatMap Tree.tokens).length = m := h.origin_add_length
    refine ⟨vs ++ [v], ?_⟩
    rw [Stem.push, Tree.values?_concat, hvs, hm, hv, Option.bind_some, Option.map_some]
  origin_le := Nat.le_trans h.origin_le hle
  le_length := hk
  span := by rw [hspan, h.span, tokens_push, origin_push, List.append_assoc]

/-- The latest child of a stem derives the symbol that was behind the dot before. -/
theorem fits_of_push {c : Tree} (h : (w.push c).Derived g input k) :
    ∃ sym, w.next? = some sym ∧ c.Fits g sym ∧
      List.Forall₂ (Tree.Fits g) (w.rule.symbols.take w.children.length) w.children := by
  have hlen := h.length_children_le
  simp only [Stem.push, List.length_append, List.length_singleton] at hlen
  have hlt : w.children.length < w.rule.symbols.length := hlen
  have hfits := h.fits
  simp only [Stem.push, List.length_append, List.length_singleton] at hfits
  have hfront := List.forall₂_take_append _ _ _ hfits
  have hlast := List.forall₂_drop_append _ _ _ hfits
  rw [List.take_take, Nat.min_eq_left (Nat.le_succ _)] at hfront
  rw [List.take_add_one, List.getElem?_eq_getElem hlt, Option.toList_some,
    List.drop_left' (List.length_take_of_le (Nat.le_of_lt hlt))] at hlast
  exact ⟨_, List.getElem?_eq_getElem hlt, (List.forall₂_cons.mp hlast).1, hfront⟩

/-- Before its latest child a stem ended where the tokens of the others end. -/
theorem span_of_push {c : Tree} (h : (w.push c).Derived g input k) :
    input.take (w.origin + w.tokens.length) = input.take w.origin ++ w.tokens := by
  have hk := h.origin_add_length
  have hle := h.le_length
  simp only [origin_push, tokens_push, List.length_append] at hk
  have htake := congrArg (List.take (w.origin + w.tokens.length)) h.span
  rw [List.take_take, Nat.min_eq_left (by omega), origin_push, tokens_push,
    ← List.append_assoc] at htake
  rw [htake]
  refine List.take_left' ?_
  rw [List.length_append, List.length_take, Nat.min_eq_left (by omega)]

/-- **A derived stem has moved** over its latest child from the column where that begins. -/
theorem of_push {c : Tree} (h : (w.push c).Derived g input k) :
    ∃ m sym v, w.Derived g input m ∧ w.next? = some sym ∧ c.Fits g sym ∧ c.Admissible ∧
      c.value? m = some v ∧ m ≤ k ∧ input.take k = input.take m ++ c.tokens := by
  obtain ⟨sym, hnext, hfits, hfront⟩ := h.fits_of_push
  have hspan := h.span_of_push
  have hk := h.origin_add_length
  have hle := h.le_length
  simp only [origin_push, tokens_push, List.length_append] at hk
  obtain ⟨vs, hvs⟩ := h.valued
  rw [Stem.push, Tree.values?_concat] at hvs
  obtain ⟨front, hvfront, hvs⟩ := Option.bind_eq_some_iff.mp hvs
  obtain ⟨v, hv, -⟩ := Option.map_eq_some_iff.mp hvs
  refine ⟨w.origin + w.tokens.length, sym, v, ?_, hnext, hfits,
    h.admissible c (List.mem_append_right _ (List.mem_singleton_self c)), hv, by omega, ?_⟩
  · exact
      { rule := h.rule
        fits := hfront
        admissible := fun c' hc' => h.admissible c' (List.mem_append_left _ hc')
        valued := ⟨front, hvfront⟩
        origin_le := Nat.le_add_right _ _
        le_length := by omega
        span := hspan }
  · rw [hspan, h.span, tokens_push, origin_push, List.append_assoc]

/-- A stem is derived and finished if its tree derives its name, is admissible and has a value. -/
theorem of_tree (hfits : s.tree.Fits g (.nonterminal s.name)) (hadm : s.tree.Admissible)
    (hv : s.tree.value? s.origin = some v) (hle : s.origin ≤ k) (hk : k ≤ input.length)
    (hspan : input.take k = input.take s.origin ++ s.tokens) :
    s.Derived g input k ∧ s.next? = none := by
  obtain ⟨-, hrule, hchildren⟩ := Tree.fits_node.mp hfits
  have hlen : s.rule.symbols.length ≤ s.children.length := Nat.le_of_eq hchildren.length_eq
  obtain ⟨vs, hvs, -⟩ := Option.bind_eq_some_iff.mp hv
  refine ⟨⟨hrule, ?_, (Tree.admissible_node.mp hadm).2, ⟨vs, hvs⟩, hle, hk, hspan⟩, ?_⟩
  · rw [List.take_of_length_le hlen]
    exact hchildren
  · exact List.getElem?_eq_none_iff.mpr hlen

/-- A derived stem moves over the next token. -/
theorem push_leaf {sym : Symbol} {t : Token} (h : w.Derived g input k)
    (hnext : w.next? = some sym) (htoken : input[k]? = some t) (haccepts : sym.accepts t = true) :
    (w.push (.leaf t)).Derived g input (k + 1) := by
  obtain ⟨hlt, -⟩ := List.getElem?_eq_some_iff.mp htoken
  refine h.push hnext (.leaf haccepts) (Tree.admissible_leaf t) (Tree.value?_leaf k t)
    k.le_succ hlt ?_
  rw [List.take_add_one, htoken, Option.toList_some, Tree.tokens_leaf]

/-- A derived stem moves over one that begins in its column and is finished with a value. -/
theorem push_tree (h : w.Derived g input d.origin) (hnext : w.next? = some (.nonterminal d.name))
    (hd : d.Derived g input k) (hvalue : d.outcome k = .value v) :
    (w.push d.tree).Derived g input k := by
  have hdone : d.next? = none := (Stem.outcome_eq_value_iff.mp hvalue).1
  obtain ⟨hadm, hv⟩ := (hd.outcome_eq_value_iff hdone).mp hvalue
  refine h.push hnext (hd.fits_tree hdone) hadm hv hd.origin_le hd.le_length ?_
  rw [tokens_tree, hd.span]

end Derived

/-- **What the steps lead to is derived.** -/
theorem Charted.derived (h : Charted g input k s) : s.Derived g input k := by
  induction h with
  | start hrule => exact Derived.predicted (Nat.zero_le _) hrule
  | predict _ _ hrule ih => exact Derived.predicted ih.le_length hrule
  | scan _ hnext htoken haccepts ih => exact ih.push_leaf hnext htoken haccepts
  | complete _ hnext _ hvalue ihw ihd => exact ihw.push_tree hnext ihd hvalue

/-- **What the steps lead to is asked for** where it begins. -/
theorem Charted.asked (h : Charted g input k s) : Asked g input s.origin s.name := by
  induction h with
  | start hrule => exact .inl ⟨rfl, Grammar.name_of_rulesFor hrule⟩
  | predict hw hnext hrule _ =>
    refine .inr ⟨_, hw, ?_⟩
    rw [hnext]
    exact congrArg (some ∘ Symbol.nonterminal) (Grammar.name_of_rulesFor hrule).symm
  | scan _ _ _ _ ih => exact ih
  | complete _ _ _ _ ihw _ => exact ihw

/-- A name that is asked for has its rules in the column. -/
theorem Asked.charted {name : String} {rule : Rule} {a : Nat} (h : Asked g input k name)
    (hrule : (g.rulesFor name)[a]? = some rule) : Charted g input k (predicted rule a k) := by
  rcases h with ⟨rfl, rfl⟩ | ⟨w, hw, hnext⟩
  · exact .start hrule
  · exact .predict hw hnext hrule

namespace Derived

/-- A derived stem is charted if those are whose trees are among its children. -/
theorem charted_of_children (h : s.Derived g input k) (hasked : Asked g input s.origin s.name)
    (ih : ∀ c ∈ s.children, ∀ (d : Stem) (k : Nat), d.tree = c → d.Derived g input k →
      Asked g input d.origin d.name → Charted g input k d) : Charted g input k s := by
  obtain ⟨rule, a, origin, children⟩ := s
  induction children using List.reverseRecOn generalizing k with
  | nil =>
    obtain rfl : origin = k := by simpa [Stem.tokens] using h.origin_add_length
    exact hasked.charted h.rule
  | append_singleton front c ihfront =>
    -- the stem before its latest child is charted, and it asks for the name of that child
    obtain ⟨m, sym, v, hw, hnext, hfits, hadm, hv, hle, hspan⟩ :=
      of_push (w := ⟨rule, a, origin, front⟩) h
    have hfront : Charted g input m ⟨rule, a, origin, front⟩ :=
      ihfront hw hasked fun c' hc' => ih c' (List.mem_append_left _ hc')
    cases hfits with
    | @leaf _ t haccepts =>
      -- the latest child is the token behind column `m`
      have hlen := congrArg List.length hspan
      have hk := h.le_length
      rw [Tree.tokens_leaf, List.length_append, List.length_take, List.length_take,
        List.length_singleton, Nat.min_eq_left hk, Nat.min_eq_left (by omega)] at hlen
      subst hlen
      rw [List.take_add_one, Tree.tokens_leaf, List.append_cancel_left_eq] at hspan
      exact hfront.scan hnext (by simpa using hspan) haccepts
    | @node rule' a' children' hrule' hchildren' =>
      -- the latest child is the tree of a stem that begins in column `m`
      obtain ⟨hd, hdone⟩ := of_tree (s := ⟨rule', a', m, children'⟩) (.node hrule' hchildren')
        hadm hv hle h.le_length (by rw [hspan, Tree.tokens_node, Stem.tokens])
      have hcharted : Charted g input k ⟨rule', a', m, children'⟩ :=
        ih _ (List.mem_append_right _ (List.mem_singleton_self _)) _ k rfl hd
          (.inr ⟨_, hfront, hnext⟩)
      exact .complete (d := ⟨rule', a', m, children'⟩) hfront hnext hcharted
        ((hd.outcome_eq_value_iff hdone).mpr ⟨hadm, hv⟩)

theorem charted_of_tree (tree : Tree) : ∀ (d : Stem) (k : Nat), d.tree = tree →
    d.Derived g input k → Asked g input d.origin d.name → Charted g input k d := by
  induction tree with
  | leaf t =>
    intro d k htree
    cases htree
  | node rule a children ih =>
    intro d k htree hd hasked
    cases htree
    exact hd.charted_of_children hasked ih

/-- **The steps lead to every stem that is derived** and asked for where it begins. -/
theorem charted (h : s.Derived g input k) (hasked : Asked g input s.origin s.name) :
    Charted g input k s :=
  charted_of_tree s.tree s k rfl h hasked

end Derived

/-! ## More input -/

theorem Charted.append (h : Charted g input k s) (more : List Token) :
    Charted g (input ++ more) k s := by
  induction h with
  | start hrule => exact .start hrule
  | predict _ hnext hrule ih => exact .predict ih hnext hrule
  | scan _ hnext htoken haccepts ih =>
    refine ih.scan hnext ?_ haccepts
    obtain ⟨hlt, -⟩ := List.getElem?_eq_some_iff.mp htoken
    rw [List.getElem?_append_left hlt, htoken]
  | complete _ hnext _ hvalue ihw ihd => exact .complete ihw hnext ihd hvalue

theorem Charted.of_append {more : List Token} (h : Charted g (input ++ more) k s)
    (hk : k ≤ input.length) : Charted g input k s := by
  induction h with
  | start hrule => exact .start hrule
  | predict _ hnext hrule ih => exact .predict (ih hk) hnext hrule
  | scan _ hnext htoken haccepts ih =>
    refine (ih (by omega)).scan hnext ?_ haccepts
    rwa [List.getElem?_append_left hk] at htoken
  | complete _ hnext hd hvalue ihw ihd =>
    -- the stem that moves stands no later than the one that it moves over
    exact .complete (ihw (Nat.le_trans hd.derived.origin_le hk)) hnext (ihd hk) hvalue

/-- **Later tokens change nothing** in the columns before them. -/
theorem charted_append {more : List Token} (hk : k ≤ input.length) :
    Charted g (input ++ more) k s ↔ Charted g input k s :=
  ⟨fun h => h.of_append hk, fun h => h.append more⟩

end Derived

end Stem

end Earley
