import Earley.Grammar.Rule

/-!
# Grammars

A grammar is a list of rules and the nonterminal to start from. The rules of one name are its
alternatives, in the order in which they were given; a name may also have none.

## Main definitions

* `Grammar`: a grammar
* `Grammar.rulesFor`: the alternatives of a nonterminal
* `Grammar.build`: a grammar from its rules, which may leave the start open
-/

namespace Earley

/-- **A grammar.** -/
structure Grammar where
  start : String
  rules : List Rule

/-- Why rules make no grammar. -/
inductive GrammarError where
  /-- There is neither a start nor a rule to take one from. -/
  | noStart
deriving DecidableEq, Repr

/-- The wording of an error. -/
def GrammarError.message : GrammarError → String
  | noStart => "grammar has no start symbol and no rules to take one from"

namespace Grammar

/-- **The alternatives of a nonterminal**, in order. -/
def rulesFor (g : Grammar) (name : String) : List Rule :=
  g.rules.filter (·.name == name)

/-- The nonterminals that have rules, each once, by code point. -/
def nonterminals (g : Grammar) : List String :=
  ((g.rules.map Rule.name).eraseDups).mergeSort fun a b => decide (a ≤ b)

/-- **A grammar from its rules.** Without a start, the name of the first rule is taken. -/
def build (start : Option String) (rules : List Rule) : Except GrammarError Grammar :=
  match start.or (rules.head?.map Rule.name) with
  | some start => .ok { start, rules }
  | none => .error .noStart

end Grammar

end Earley
