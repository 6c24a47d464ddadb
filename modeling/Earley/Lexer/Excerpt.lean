import Earley.Text.Lines
import Earley.Text.Position
import Earley.Token.Basic

/-!
# Excerpts

An excerpt shows where a token stands: the line it is on and up to four lines before it, each with
its number, and a caret under its first character. Only the chunk at hand is shown, and the first
line of a chunk may be the rest of a line that began earlier.

## Main definitions

* `Excerpt`: numbered lines and the place of the caret
* `Excerpt.around`: the excerpt that shows a token
* `Excerpt.render`: its text
-/

namespace Earley

/-- **The surroundings of a place in a text.** -/
structure Excerpt where
  line : Nat
  col : Nat
  /-- The lines that are shown, with their numbers. -/
  rows : List (Nat × List Char)
  /-- How many characters of the last row the caret points behind, and one more. -/
  caret : Nat

namespace Excerpt

/-- How many lines are shown before the one in question. -/
def linesBefore : Nat := 4

/-- Numbers lines so that the last one gets a given number. -/
def numberedTo (last : Nat) (rows : List (List Char)) : List (Nat × List Char) :=
  rows.zipIdx.map fun (row, i) => (last + 1 + i - rows.length, row)

/-- **The excerpt that shows a token** in a chunk that begins at a position. A line outside the
chunk is replaced by the nearest one inside. -/
def around (chunk : List Char) (start : Position) (t : Token) : Excerpt :=
  let all := Text.lines chunk
  let row := min (t.line - start.line) (all.length - 1)
  { line := t.line
    col := t.col
    rows := numberedTo t.line ((all.take (row + 1)).drop (row - linesBefore))
    caret := if row = 0 then t.col - start.col else t.col }

/-- The number of digits of the line number, which all rows leave room for. -/
def digits (e : Excerpt) : Nat :=
  (toString e.line).length

/-- The text of one row. -/
def renderRow (e : Excerpt) (row : Nat × List Char) : String :=
  let number := toString row.1
  "".pushn ' ' (e.digits - number.length) ++ number ++ " " ++ String.ofList row.2

/-- **The text of an excerpt** under a headline. -/
def render (e : Excerpt) (headline : String) : String :=
  headline ++ " at line " ++ toString e.line ++ " col " ++ toString e.col ++ ":\n\n"
    ++ "\n".intercalate (e.rows.map e.renderRow) ++ "\n"
    ++ "".pushn ' ' (e.digits + e.caret) ++ "^\n"

end Excerpt

end Earley
