/-!
# Runs of letters with two cases

Most letters with two cases lie in runs of neighbouring code points whose other forms keep a fixed
distance. A mapping of letters is kept as such runs.

## Main definitions

* `CaseRun`: a run and the place of its images
* `CaseRun.image?`, `CaseRun.source?`: the mapping of one run, forwards and backwards
-/

namespace Earley.Text

/-- **A run of code points**: every `step`-th one from `first` to `last`, where `first` is sent to
`target` and the others keep that distance. -/
structure CaseRun where
  first : Nat
  last : Nat
  step : Nat
  target : Nat

namespace CaseRun

/-- Whether a code point belongs to the run. -/
def Has (run : CaseRun) (c : Nat) : Prop :=
  run.first ≤ c ∧ c ≤ run.last ∧ (c - run.first) % run.step = 0

instance (run : CaseRun) (c : Nat) : Decidable (run.Has c) :=
  inferInstanceAs (Decidable (_ ∧ _))

/-- Where a code point of the run is sent. -/
def image? (run : CaseRun) (c : Nat) : Option Nat :=
  if run.Has c then some (run.target + (c - run.first)) else none

/-- The code point of the run that is sent to `d`. -/
def source? (run : CaseRun) (d : Nat) : Option Nat :=
  if run.target ≤ d ∧ run.Has (run.first + (d - run.target)) then
    some (run.first + (d - run.target))
  else
    none

/-- A run sends the source of a code point to that code point. -/
theorem image?_of_source? {run : CaseRun} {c d : Nat} (h : run.source? d = some c) :
    run.image? c = some d := by
  simp only [source?] at h
  split at h
  · next hd =>
    obtain rfl := Option.some.inj h
    simp only [image?, hd.2, if_true, Option.some.injEq]
    omega
  · simp at h

end CaseRun

end Earley.Text
