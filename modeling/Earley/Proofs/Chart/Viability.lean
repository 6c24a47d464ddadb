import Earley.Proofs.Chart.Charted
import Earley.Proofs.Grammar.Language

/-!
# Viable beginnings of input

A stem in a column says how input may go on: the start derives a form that takes the input up to the
column and goes on with the symbols behind the dot. Conversely, if the start derives a form that
begins by taking the input, and no reducer refuses, then some stem stands in the column behind that
input. Derivations that repeat a name without input do not count in a column, but each of them has
an admissible counterpart over the same tokens, over which the stem can move instead.

## Main definitions

* `Stem.remaining`: the symbols behind the dot

## Main results

* `Stem.Charted.exists_derives`: a stem in a column stands in a derivation from the start
* `Stem.Charted.exists_charted`: a stem in a column leads to stems in the columns up to which the
  symbols behind its dot expand
* `Stem.exists_charted_iff`: the column behind an input has a stem exactly if the input is viable
-/

namespace Earley

namespace Stem

open Grammar (Expands Takes derives_rule derives_iff_expands)

/-- **The symbols behind the dot.** -/
def remaining (s : Stem) : List Symbol :=
  s.rule.symbols.drop s.children.length

variable {g : Grammar} {input seg more : List Token} {k m : Nat} {s w : Stem} {c : Tree}
  {sym : Symbol} {form next front back : List Symbol}

@[simp] theorem remaining_predicted (rule : Rule) (a o : Nat) :
    (predicted rule a o).remaining = rule.symbols := rfl

theorem exists_remaining (h : s.next? = some sym) : ∃ rest, s.remaining = sym :: rest := by
  obtain ⟨hlt, hsym⟩ := List.getElem?_eq_some_iff.mp h
  refine ⟨s.rule.symbols.drop (s.children.length + 1), ?_⟩
  rw [remaining, List.drop_eq_getElem_cons hlt, hsym]

theorem next?_of_remaining (h : s.remaining = sym :: form) : s.next? = some sym := by
  have hhead := congrArg List.head? h
  rwa [remaining, List.head?_drop] at hhead

theorem remaining_push (h : s.remaining = sym :: form) : (s.push c).remaining = form := by
  have htail := congrArg List.tail h
  rw [remaining, List.tail_drop, List.tail_cons] at htail
  rw [← htail, remaining, push, List.length_append, List.length_singleton]

/-! ## From columns to derivations -/

/-- **A stem in a column stands in a derivation from the start**: what is before it takes the input
up to the column. -/
theorem Charted.exists_derives (h : Charted g input k s) :
    ∃ front back, g.Derives [.nonterminal g.start] (front ++ s.remaining ++ back) ∧
      Takes front (input.take k) := by
  induction h with
  | @start rule a hrule =>
    refine ⟨[], [], ?_, .nil⟩
    simpa using derives_rule (List.mem_of_getElem? hrule) [] []
  | @predict k w name rule a _ hnext hrule ih =>
    obtain ⟨front, back, hderives, htakes⟩ := ih
    obtain ⟨rest, hrest⟩ := exists_remaining hnext
    rw [hrest, List.append_assoc, List.cons_append] at hderives
    refine ⟨front, rest ++ back, ?_, htakes⟩
    exact hderives.trans (derives_rule (List.mem_of_getElem? hrule) front (rest ++ back))
  | @scan k w sym t _ hnext htoken haccepts ih =>
    obtain ⟨front, back, hderives, htakes⟩ := ih
    obtain ⟨rest, hrest⟩ := exists_remaining hnext
    rw [hrest] at hderives
    refine ⟨front ++ [sym], back, ?_, ?_⟩
    · rw [remaining_push hrest]
      simpa using hderives
    · rw [List.take_add_one, htoken, Option.toList_some]
      exact htakes.append (.cons haccepts .nil)
  | @complete k w d v _ hnext hd hvalue ih _ =>
    obtain ⟨front, back, hderives, htakes⟩ := ih
    obtain ⟨rest, hrest⟩ := exists_remaining hnext
    rw [hrest] at hderives
    -- the name that the stem moves over derives the tokens in between
    have hdone : d.next? = none := (Stem.outcome_eq_value_iff.mp hvalue).1
    obtain ⟨form, hform, hmatch⟩ := (hd.derived.fits_tree hdone).exists_expands
    rw [tokens_tree] at hmatch
    refine ⟨front ++ form, back, ?_, ?_⟩
    · have hinside := hform.derives.append front (rest ++ back)
      rw [remaining_push hrest]
      simp only [List.append_assoc, List.cons_append, List.nil_append] at hderives hinside ⊢
      exact hderives.trans hinside
    · rw [hd.derived.span]
      exact htakes.append hmatch

/-! ## From derivations to columns -/

/-- A stem in a column moves over a tree of the symbol behind its dot, wherever that ends. -/
theorem Charted.push_tree {v : Value} (h : Charted g input m w) (hnext : w.next? = some sym)
    (hfits : c.Fits g sym) (hadm : c.Admissible) (hv : c.value? m = some v)
    (hinput : input.drop m = c.tokens ++ more) :
    Charted g input (m + c.tokens.length) (w.push c) := by
  have hlen := congrArg List.length hinput
  simp only [List.length_drop, List.length_append] at hlen
  have hm := h.derived.le_length
  refine Derived.charted ?_ h.asked
  refine h.derived.push hnext hfits hadm hv (Nat.le_add_right _ _) (by omega) ?_
  rw [List.take_add, hinput, List.take_left]

/-- A stem in a column moves over a nonterminal whose rule expands to a form that takes the next
tokens. The tree that it moves over is an admissible one, whatever the expansion was. -/
theorem Charted.exists_push {name : String} {rule : Rule} {inner : List Symbol}
    (hg : g.NeverRejects) (hw : Charted g input m w) (hnext : w.next? = some (.nonterminal name))
    (hrule : rule ∈ g.rulesFor name) (hinner : Expands g rule.symbols inner)
    (htakes : Takes inner seg) (hinput : input.drop m = seg ++ more) :
    ∃ c, Charted g input (m + seg.length) (w.push c) := by
  obtain ⟨trees, hfits, rfl⟩ :=
    (Expands.replace hrule hinner .nil).exists_trees (by rwa [List.append_nil])
  obtain ⟨tree, rest, hfit, hrest, rfl⟩ := List.forall₂_cons_left_iff.mp hfits
  obtain rfl := List.forall₂_nil_left_iff.mp hrest
  obtain ⟨c, hc, hadm, htokens⟩ := hfit.exists_admissible
  obtain ⟨v, hv⟩ := hc.exists_value hg m
  rw [List.flatMap_singleton, ← htokens] at hinput ⊢
  exact ⟨c, hw.push_tree hnext hc hadm hv hinput⟩

/-- **A stem in a column leads on**: if the symbols behind its dot expand to a form that begins by
taking the next tokens, there is a stem in the column behind these tokens. -/
theorem Charted.exists_charted (hg : g.NeverRejects) (h : Expands g form next)
    (hw : Charted g input m w) (hform : w.remaining = form) (hnext : next = front ++ back)
    (htakes : Takes front seg) (hinput : input.drop m = seg ++ more) :
    ∃ s, Charted g input (m + seg.length) s := by
  induction h generalizing m w front back seg with
  | nil =>
    obtain ⟨rfl, -⟩ := List.append_eq_nil_iff.mp hnext.symm
    cases htakes
    exact ⟨w, hw⟩
  | @keep sym form next _ ih =>
    cases htakes with
    | nil => exact ⟨w, hw⟩
    | @cons sym' t front seg haccepts htakes =>
      -- the symbol is kept, and takes the next token
      obtain ⟨rfl, rfl⟩ := List.cons.inj hnext
      have htoken : input[m]? = some t := by
        rw [← List.head?_drop, hinput, List.cons_append, List.head?_cons]
      have hrest : input.drop (m + 1) = seg ++ more := by
        rw [← List.tail_drop, hinput, List.cons_append, List.tail_cons]
      obtain ⟨s, hs⟩ := ih (hw.scan (next?_of_remaining hform) htoken haccepts)
        (remaining_push hform) rfl htakes hrest
      rw [Nat.add_assoc, Nat.add_comm 1] at hs
      exact ⟨s, hs⟩
  | @replace name rule form inner next hrule hinner _ ihinner ih =>
    obtain ⟨a, ha⟩ := List.mem_iff_getElem?.mp hrule
    rcases List.append_eq_append_iff.mp hnext with ⟨rest, rfl, rfl⟩ | ⟨rest, rfl, rfl⟩
    · -- the tokens go beyond what the nonterminal expands to: the stem moves over it
      obtain ⟨first, second, rfl, hfirst, hsecond⟩ := htakes.split
      rw [List.append_assoc] at hinput
      obtain ⟨c, hpush⟩ :=
        hw.exists_push hg (next?_of_remaining hform) hrule hinner hfirst hinput
      have hrest : input.drop (m + first.length) = second ++ more := by
        rw [← List.drop_drop, hinput, List.drop_left]
      obtain ⟨s, hs⟩ := ih hpush (remaining_push hform) rfl hsecond hrest
      rw [Nat.add_assoc, ← List.length_append] at hs
      exact ⟨s, hs⟩
    · -- the tokens end within what the nonterminal expands to: its rule is predicted
      exact ihinner (hw.predict (next?_of_remaining hform) ha) (remaining_predicted rule a m) rfl
        htakes hinput

/-- **The column behind an input has a stem exactly if the input is viable.** -/
theorem exists_charted_iff (hg : g.NeverRejects) (hne : input ≠ []) :
    (∃ s, Charted g input input.length s) ↔ g.Viable input := by
  constructor
  · rintro ⟨s, hs⟩
    obtain ⟨front, back, hderives, htakes⟩ := hs.exists_derives
    rw [List.append_assoc] at hderives
    rw [List.take_length] at htakes
    exact ⟨front, s.remaining ++ back, hderives, htakes⟩
  · rintro ⟨front, back, hderives, htakes⟩
    have hexpands := derives_iff_expands.mp hderives
    generalize hform : front ++ back = form at hexpands
    cases hexpands with
    | keep _ =>
      -- a form that begins with the start takes no token
      cases htakes with
      | nil => exact absurd rfl hne
      | cons haccepts _ =>
        obtain ⟨rfl, -⟩ := List.cons.inj hform
        exact absurd haccepts (by simp [Symbol.accepts])
    | @replace _ rule _ inner next hrule hinner hnil =>
      obtain ⟨a, ha⟩ := List.mem_iff_getElem?.mp hrule
      cases hnil
      rw [List.append_nil] at hform
      have hstart : Charted g input 0 (predicted rule a 0) := .start ha
      have hinput : input.drop 0 = input ++ [] := by rw [List.drop_zero, List.append_nil]
      obtain ⟨s, hs⟩ := hstart.exists_charted hg hinner (remaining_predicted rule a 0) hform.symm
        htakes hinput
      rw [Nat.zero_add] at hs
      exact ⟨s, hs⟩

end Stem

end Earley
