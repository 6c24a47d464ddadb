import Earley.Lexer.Text

/-!
# Characters as tokens

The plainest lexer: every character of the input, blanks and line ends included, is a token of its
own. Offsets count characters. Columns are words of 64 bits, and behind the greatest one they start
again at zero, which only a mark from outside can bring about.

## Main definitions

* `characters`: the lexer
-/

namespace Earley

namespace Characters

/-- Offsets count characters; so do columns, modulo `2 ^ 64`. -/
def ruler : Ruler where
  width _ := 1
  nextCol n := (n + 1) % UInt64.size

/-- The token of a character at a position. -/
def tokenAt (p : Position) (c : Char) : Token :=
  { value := String.singleton c
    offset := p.offset
    line := p.line
    col := ruler.nextCol p.col }

/-- The character at the cursor. -/
def next (cursor : Cursor) : Taken :=
  match cursor.rest with
  | [] => .nothing cursor
  | c :: rest =>
    .token (tokenAt cursor.position c) { rest, position := cursor.position.step ruler c }

theorem next_lt {c c' : Cursor} {t : Token} (h : next c = .token t c') :
    c'.rest.length < c.rest.length := by
  unfold next at h
  split at h
  · simp at h
  · next hrest =>
    obtain ⟨-, rfl⟩ := Taken.token.inj h
    simp [hrest]

end Characters

/-- **The lexer that makes every character a token.** -/
def characters : TextLexer where
  next := Characters.next
  next_lt := Characters.next_lt

end Earley
