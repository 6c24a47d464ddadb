import Earley.Report.Basic

/-!
# Errors of a parser

## Main definitions

* `HistoryError`: why a parser cannot be rewound
* `InputError`: why input was refused
* `HistoryError.message`, `InputError.message`: the wording
-/

namespace Earley

/-- **Why a parser cannot be rewound.** -/
inductive HistoryError where
  /-- The parser keeps no history. -/
  | notKept
  /-- There is no such column. -/
  | noColumn (index : Nat)
deriving DecidableEq, Repr

/-- The wording of an error. -/
def HistoryError.message : HistoryError → String
  | notKept => "set option `keep_history` to enable rewinding"
  | noColumn index => "no column " ++ toString index ++ " in the chart to rewind to"

/-- **Why input was refused.** The offset is the number of tokens taken before. -/
inductive InputError where
  /-- The lexer could not read it; `text` is what it points at. -/
  | unreadable (text : String) (offset : Nat) (report : Report)
  /-- The grammar does not allow the token here. -/
  | unexpected (token : Token) (offset : Nat) (report : Report)

namespace InputError

/-- The number of tokens taken before. -/
def offset : InputError → Nat
  | unreadable _ offset _ => offset
  | unexpected _ offset _ => offset

/-- The report of an error. -/
def report : InputError → Report
  | unreadable _ _ report => report
  | unexpected _ _ report => report

/-- The wording of an error. -/
def message (e : InputError) : String :=
  e.report.render

end InputError

end Earley
