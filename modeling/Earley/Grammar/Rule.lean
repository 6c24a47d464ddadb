import Earley.Grammar.Symbol
import Earley.Reducer.Basic

/-!
# Rules

A rule lets a nonterminal derive a row of symbols and says what value such a derivation has.

## Main definitions

* `Rule`: a rule of a grammar
* `Rule.display`: the written form of a rule
* `Rule.dotted`: the same with a mark that shows how far a derivation has come
-/

namespace Earley

/-- **A rule**: the nonterminal `name` derives `symbols`. -/
structure Rule where
  name : String
  symbols : List Symbol
  reduce : Reducer := Reducer.pack

namespace Rule

/-- Whether the right side is empty. -/
def isNullable (rule : Rule) : Bool :=
  rule.symbols.isEmpty

/-- The written form, with the parts of the right side given. -/
def displayWith (rule : Rule) (parts : List String) : String :=
  rule.name ++ " → " ++ " ".intercalate parts

/-- **The written form of a rule.** -/
def display (rule : Rule) : String :=
  rule.displayWith (rule.symbols.map Symbol.display)

/-- The written form under its heading. -/
def summary (rule : Rule) : String :=
  "Rule(" ++ rule.display ++ ")"

/-- **The written form with a mark** behind the first `dot` symbols. -/
def dotted (rule : Rule) (dot : Nat) : String :=
  rule.displayWith <|
    (rule.symbols.take dot).map Symbol.display ++ "●" :: (rule.symbols.drop dot).map Symbol.display

end Rule

end Earley
