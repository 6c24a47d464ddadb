import Earley.Chart.Closure
import Earley.Lexer.Basic
import Earley.Parser.Error

/-!
# Parsers

A parser takes input in chunks. Its lexer reads a chunk into tokens, and every token adds a column
to the chart, so that after each chunk the results are the values of the whole input so far.

For every column a parser has a bookmark: the chart up to that column, and the mark from which the
lexer goes on. The bookmark of the last column is all that later input depends on. The earlier ones
serve rewinding; a parser that keeps no history holds on to the last of them only.

When input is refused, the parser stays at the last column it reached and holds an empty column
behind it, until the next chunk comes.

## Main definitions

* `Bookmark`: a column to go on from
* `Parser`: a parser over a lexer
* `Parser.start`: a parser before any input
* `Parser.current`, `Parser.table`, `Parser.column?`: its columns
* `Parser.finish`: the values of the input
-/

namespace Earley

/-- **A column to go on from**: the chart up to it, and where the lexer goes on. -/
structure Bookmark (Mark : Type) where
  chart : Chart
  resume : Mark

/-- The number of the column. -/
def Bookmark.index {Mark : Type} (b : Bookmark Mark) : Nat :=
  b.chart.index

/-- **A parser** over a lexer. -/
@[ext]
structure Parser {Chunk Mark : Type} (lexer : Lexer Chunk Mark) where
  grammar : Grammar
  /-- Whether the bookmarks of all columns are kept. -/
  keepHistory : Bool
  /-- The bookmarks of the earlier columns, as far as they are kept. -/
  past : Array (Option (Bookmark Mark)) := #[]
  /-- The bookmark of the last column. -/
  head : Bookmark Mark
  /-- Whether the latest input was refused. -/
  blocked : Bool := false
  /-- The mark that the lexer has reached. -/
  stand : Mark
  /-- The values of the input up to the last chunk that was taken whole. -/
  results : List Value := []

namespace Parser

variable {Chunk Mark : Type} {lexer : Lexer Chunk Mark}

/-- The number of the last column, which is the number of tokens taken. -/
def current (p : Parser lexer) : Nat :=
  p.head.index

/-- The empty column behind refused input. It has nothing to go on from but the beginning. -/
def placeholder (p : Parser lexer) : Bookmark Mark :=
  { chart := p.head.chart.blank, resume := lexer.origin }

/-- **The columns of a parser**: the earlier ones, the last one, and the empty one behind refused
input. -/
def table (p : Parser lexer) : Array (Option (Bookmark Mark)) :=
  let reached := p.past.push (some p.head)
  if p.blocked then reached.push (some p.placeholder) else reached

/-- The chart up to a column, if that is kept. -/
def column? (p : Parser lexer) (index : Nat) : Option Chart :=
  (p.table[index]?.join).map Bookmark.chart

/-- **The values of the input**, none behind refused input. -/
def finish (p : Parser lexer) : List Value :=
  if p.blocked then [] else p.head.chart.results p.grammar.start

/-- The parser with its results brought up to date. -/
def refresh (p : Parser lexer) : Parser lexer :=
  { p with results := p.finish }

/-- **A parser before any input.** Closing a column takes at most `fuel` visits. -/
def start (lexer : Lexer Chunk Mark) (grammar : Grammar) (keepHistory : Bool) (fuel : Nat) :
    Option (Parser lexer) :=
  (Chart.initial grammar fuel).map fun chart =>
    refresh
      { grammar
        keepHistory
        head := { chart, resume := lexer.origin }
        stand := lexer.origin }

end Parser

end Earley
