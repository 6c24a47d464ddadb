/-!
# Sets of code points

A property of characters is kept as the spans of the code points that have it. The tables of this
library follow version 17 of the Unicode standard, apart from those that name another one.

## Main definitions

* `CodePoints`: a list of spans
* `CodePoints.has`: membership, reading no further than the span in question

## Main results

* `CodePoints.has_iff`: on ordered spans, membership is membership in some span
-/

namespace Earley.Text

/-- **A set of code points**: its spans `(first, last)`, both ends included, in increasing order. -/
abbrev CodePoints := List (Nat × Nat)

namespace CodePoints

/-- Membership. The search ends at the first span that begins behind the code point. -/
def has : CodePoints → Nat → Bool
  | [], _ => false
  | (first, last) :: rest, c => decide (first ≤ c) && (decide (c ≤ last) || has rest c)

/-- Each span begins behind the end of every span before it. -/
def Ordered (spans : CodePoints) : Prop :=
  spans.Pairwise fun a b => a.2 < b.1

/-- **Membership in ordered spans** is membership in one of them. -/
theorem has_iff {spans : CodePoints} (ordered : spans.Ordered) (proper : ∀ a ∈ spans, a.1 ≤ a.2)
    (c : Nat) : spans.has c = true ↔ ∃ a ∈ spans, a.1 ≤ c ∧ c ≤ a.2 := by
  induction spans with
  | nil => simp [has]
  | cons a rest ih =>
    obtain ⟨first, last⟩ := a
    have behind := (List.pairwise_cons.1 ordered).1
    have ih := ih (List.pairwise_cons.1 ordered).2 fun b hb => proper b (by simp [hb])
    have here := proper (first, last) (by simp)
    simp only [has, Bool.and_eq_true, decide_eq_true_eq, Bool.or_eq_true, ih, List.mem_cons]
    constructor
    · rintro ⟨h, h' | ⟨b, hb, h'⟩⟩
      · exact ⟨_, .inl rfl, h, h'⟩
      · exact ⟨b, .inr hb, h'⟩
    · rintro ⟨b, rfl | hb, h, h'⟩
      · exact ⟨h, .inl h'⟩
      · have := behind b hb
        exact ⟨by dsimp only at this here; omega, .inr ⟨b, hb, h, h'⟩⟩

end CodePoints

end Earley.Text
