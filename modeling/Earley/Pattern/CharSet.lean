import Earley.Text.CodePoints
import Earley.Text.Folding

/-!
# Character sets of patterns

The set of characters that one place of a pattern accepts: spans of code points, perhaps in either
case, and what the operations of sets make of them.

## Main definitions

* `CharSet`: a set of characters
* `CharSet.has`: membership
* `CharSet.inAnyCase`: the set with case disregarded

## Main results

* `CharSet.has_all`, `CharSet.has_single`: membership in the simplest sets
-/

namespace Earley

/-- **How two sets are combined.** -/
inductive SetOperator where
  | intersection
  | difference
  | symmetricDifference
deriving DecidableEq, Repr

/-- Membership in a combination, from membership in both sets. -/
def SetOperator.apply : SetOperator → Bool → Bool → Bool
  | intersection, a, b => a && b
  | difference, a, b => a && !b
  | symmetricDifference, a, b => a ^^ b

/-- **The characters that one place of a pattern accepts.** -/
inductive CharSet where
  /-- The characters of some spans `(first, last)` of code points, both ends included, in any order;
  where case does not count, also their variants. -/
  | spans (anyCase : Bool) (table : List (Nat × Nat))
  /-- The characters outside a set. -/
  | outside (set : CharSet)
  | combined (op : SetOperator) (left right : CharSet)

namespace CharSet

/-- The set of one character. -/
def single (c : Char) : CharSet :=
  spans false [(c.toNat, c.toNat)]

/-- All characters. -/
def all : CharSet :=
  outside (spans false [])

/-- All characters but the line end. -/
def allButLineEnd : CharSet :=
  outside (single '\n')

/-- Whether some span holds a code point. -/
def covers (table : List (Nat × Nat)) (c : Nat) : Bool :=
  table.any fun (first, last) => decide (first ≤ c ∧ c ≤ last)

/-- **Membership.** -/
def has : CharSet → Char → Bool
  | spans anyCase table, c =>
    if anyCase then (Text.variants c.toNat).any (covers table) else covers table c.toNat
  | outside set, c => !set.has c
  | combined op left right, c => op.apply (left.has c) (right.has c)

/-- The set with case disregarded. Variants are added to the spans, before a set is turned around or
combined with another. -/
def inAnyCase : CharSet → CharSet
  | spans _ table => spans true table
  | outside set => outside set.inAnyCase
  | combined op left right => combined op left.inAnyCase right.inAnyCase

@[simp] theorem has_all (c : Char) : all.has c = true := rfl

theorem has_single (a c : Char) : (single a).has c = true ↔ c = a := by
  have : a.toNat = c.toNat → c = a := fun h => Char.ext (UInt32.toNat.inj h).symm
  simp only [single, has, covers, List.any_cons, List.any_nil, Bool.or_false, decide_eq_true_eq,
    Bool.false_eq_true, if_false]
  exact ⟨fun h => this (by omega), fun h => h ▸ ⟨Nat.le_refl _, Nat.le_refl _⟩⟩

end CharSet

end Earley
