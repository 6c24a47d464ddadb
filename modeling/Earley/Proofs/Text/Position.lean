import Earley.Text.Position
import Mathlib.Algebra.GroupWithZero.Nat
import Mathlib.Data.List.DropRight
import Mathlib.Logic.Function.Iterate

/-!
# The position behind a text

The offset behind a text counts what its characters add to it, and the line counts its line feeds.
The column counts the characters behind the last line feed, or behind the column where the text
began if there is no line feed.

## Main results

* `Position.offset_behind`, `Position.line_behind`, `Position.col_behind`: the offset, the line and
  the column behind a text
-/

namespace Earley.Position

variable (ruler : Ruler) (p : Position) (text : List Char)

theorem offset_behind :
    (p.behind ruler text).offset = p.offset + (text.map ruler.width).sum := by
  induction text generalizing p with
  | nil => rfl
  | cons c rest ih =>
    rw [behind_cons, ih, offset_step, List.map_cons, List.sum_cons, Nat.add_assoc]

theorem line_behind : (p.behind ruler text).line = p.line + text.count '\n' := by
  induction text generalizing p with
  | nil => rfl
  | cons c rest ih =>
    rw [behind_cons, ih, step]
    split
    · next hc =>
      simp only [hc, List.count_cons_self]
      omega
    · next hc => rw [List.count_cons_of_ne hc]

/-- **The column behind a text** is that of the characters behind its last line feed. -/
theorem col_behind :
    (p.behind ruler text).col =
      ruler.nextCol^[(text.rtakeWhile (· ≠ '\n')).length] (if '\n' ∈ text then 0 else p.col) := by
  -- a character at the end ends the line, or goes on with it
  induction text using List.reverseRecOn with
  | nil => simp
  | append_singleton front c ih =>
    rw [behind_append, behind_cons, behind_nil, step]
    by_cases hc : c = '\n'
    · simp [hc]
    · rw [if_neg hc, ih, List.rtakeWhile_concat_pos _ _ _ (by simpa using hc), List.length_append,
        List.length_singleton, Function.iterate_succ_apply']
      simp [Ne.symm hc]

end Earley.Position
