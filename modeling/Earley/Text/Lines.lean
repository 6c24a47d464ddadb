/-!
# The lines of a text

A line feed ends a line, so a text has one line more than it has line feeds.

## Main definitions

* `lines`: the lines of a text

## Main results

* `lines_ne_nil`: there is at least one line
* `length_lines`: there is one line more than there are line feeds
-/

namespace Earley.Text

/-- **The lines of a text**, without the line feeds between them. -/
def lines : List Char → List (List Char)
  | [] => [[]]
  | c :: rest =>
    if c = '\n' then
      [] :: lines rest
    else
      match lines rest with
      | [] => [[c]]
      | line :: later => (c :: line) :: later

theorem lines_ne_nil (text : List Char) : lines text ≠ [] := by
  cases text with
  | nil => simp [lines]
  | cons c rest =>
    rw [lines]
    split
    · simp
    · split <;> simp

/-- A text has one line more than it has line feeds. -/
theorem length_lines (text : List Char) : (lines text).length = text.count '\n' + 1 := by
  induction text with
  | nil => simp [lines]
  | cons c rest ih =>
    rw [lines]
    split
    · simp_all
    · split
      · next h => exact absurd h (lines_ne_nil rest)
      · next h => simp_all

end Earley.Text
