import Earley.Parser.Basic

/-!
# Going back

A parser can save its last column and go back to it later, and one that keeps its history can go
back to any column. A bookmark may even come from another parser: its chart is complete in itself.

## Main definitions

* `Parser.save`, `Parser.restore`: going back to a bookmark
* `Parser.rewind`: going back to a column by its number
-/

namespace Earley.Parser

variable {Chunk Mark : Type} {lexer : Lexer Chunk Mark}

/-- **The bookmark of the last column.** -/
def save (p : Parser lexer) : Bookmark Mark :=
  p.head

/-- **Goes back to a bookmark.** Of the columns of the parser those before the bookmark stay, and
any that are missing in between are left open. -/
def restore (p : Parser lexer) (b : Bookmark Mark) : Parser lexer :=
  let kept := p.table.take b.index
  refresh
    { p with
      past := kept ++ Array.replicate (b.index - kept.size) none
      head := b
      blocked := false }

/-- **Goes back to a column**, which needs the history. -/
def rewind (p : Parser lexer) (index : Nat) : Except HistoryError (Parser lexer) :=
  if p.keepHistory then
    match p.table[index]?.join with
    | some b => .ok (p.restore b)
    | none => .error (.noColumn index)
  else
    .error .notKept

end Earley.Parser
