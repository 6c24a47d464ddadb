/-!
# Runs of equal neighbours

A list written shorter: equal neighbours are written once, with their number.

## Main definitions

* `runs`: the runs of a list, with their lengths
* `unfoldRuns`: the list of given runs

## Main results

* `unfoldRuns_runs`: nothing is lost
* `runs_pos`: no run is empty
-/

namespace Earley

variable {α : Type} [DecidableEq α]

/-- **The runs of equal neighbours** of a list, each with its length. -/
def runs : List α → List (α × Nat)
  | [] => []
  | a :: rest =>
    match runs rest with
    | [] => [(a, 1)]
    | (b, n) :: later => if a = b then (a, n + 1) :: later else (a, 1) :: (b, n) :: later

/-- The list that has the given runs. -/
def unfoldRuns (rs : List (α × Nat)) : List α :=
  rs.flatMap fun (a, n) => List.replicate n a

/-- **Nothing is lost** by writing runs. -/
theorem unfoldRuns_runs (as : List α) : unfoldRuns (runs as) = as := by
  induction as with
  | nil => rfl
  | cons a rest ih =>
    rw [runs]
    split
    · next h => rw [h] at ih; simp_all [unfoldRuns]
    · next h =>
      rw [h] at ih
      split <;> simp_all [unfoldRuns, List.replicate_succ]

/-- No run is empty. -/
theorem runs_pos {as : List α} {r : α × Nat} (h : r ∈ runs as) : 0 < r.2 := by
  induction as generalizing r with
  | nil => simp [runs] at h
  | cons a rest ih =>
    rw [runs] at h
    split at h
    · simp_all
    · next b n later hruns =>
      rw [hruns] at ih
      split at h
      · rcases List.mem_cons.1 h with rfl | h
        · simp
        · exact ih (List.mem_cons_of_mem _ h)
      · rcases List.mem_cons.1 h with rfl | h
        · simp
        · exact ih h

end Earley
