/-!
# Positions in a text

A position says how far reading has come: the line, the column reached on it, and the offset from
the beginning. Lines end with a line feed. How columns and offsets grow is a choice of the reader,
who may count characters or bytes.

## Main definitions

* `Position`: a place between two characters
* `Ruler`: how a reader counts
* `Position.step`, `Position.behind`: the position behind a character, and behind a text

## Main results

* `Position.behind_append`: passing two texts is passing one after the other
-/

namespace Earley

/-- **A place between two characters** of a text. -/
structure Position where
  /-- The line, counted from one. -/
  line : Nat := 1
  /-- The column of the character before, counted from one, and zero where a line begins. -/
  col : Nat := 0
  /-- The distance from the beginning. -/
  offset : Nat := 0
deriving DecidableEq, Repr, Inhabited

/-- **How a reader counts.** -/
structure Ruler where
  /-- What a character adds to the offset. -/
  width : Char → Nat
  /-- The column of the character behind a column. -/
  nextCol : Nat → Nat

namespace Position

variable (ruler : Ruler)

/-- The position behind a character. -/
def step (p : Position) (c : Char) : Position :=
  if c = '\n' then
    { line := p.line + 1, col := 0, offset := p.offset + ruler.width c }
  else
    { line := p.line, col := ruler.nextCol p.col, offset := p.offset + ruler.width c }

@[simp] theorem offset_step (p : Position) (c : Char) :
    (p.step ruler c).offset = p.offset + ruler.width c := by
  unfold step
  split <;> rfl

/-- **The position behind a text.** -/
def behind (p : Position) (text : List Char) : Position :=
  text.foldl (step ruler) p

@[simp] theorem behind_nil (p : Position) : p.behind ruler [] = p := rfl

@[simp] theorem behind_cons (p : Position) (c : Char) (text : List Char) :
    p.behind ruler (c :: text) = (p.step ruler c).behind ruler text := rfl

theorem behind_append (p : Position) (a b : List Char) :
    p.behind ruler (a ++ b) = (p.behind ruler a).behind ruler b :=
  List.foldl_append

end Position

end Earley
