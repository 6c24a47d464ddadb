import Earley.Text.Quoted
import Earley.Value.Basic

/-!
# How values are written

A value is written on one line: texts and tokens in quotes, lists in square brackets.

## Main definitions

* `Value.display`: the written form of a value
-/

namespace Earley.Value

mutual

/-- **The written form of a value.** -/
def display : Value → String
  | null => "null"
  | bool b => if b then "true" else "false"
  | int n => toString n.toInt
  | string s => Text.quoted s
  | token t => Text.quoted t.value
  | list items => "[" ++ ", ".intercalate (displays items) ++ "]"

/-- The written forms of several values. -/
def displays : List Value → List String
  | [] => []
  | v :: rest => display v :: displays rest

end

end Earley.Value
