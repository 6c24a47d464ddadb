import Earley.Pattern.Basic
import Earley.Text.Lowercase
import Earley.Text.Quoted
import Earley.Token.Basic

/-!
# Symbols

The right side of a rule is a row of symbols. A nonterminal stands for whatever its rules derive;
every other symbol is terminal and stands for one token.

## Main definitions

* `Symbol`: the symbols of a grammar
* `Symbol.accepts`: whether a terminal symbol takes a token
* `Symbol.display`, `Symbol.description`: the short and the long written form
-/

namespace Earley

/-- **The symbols of a grammar.** -/
inductive Symbol where
  /-- What the rules of this name derive. -/
  | nonterminal (name : String)
  /-- A token of this source text, perhaps in either case. -/
  | literal (text : String) (anyCase : Bool)
  /-- A token of this kind. -/
  | kind (name : String)
  /-- A token in whose value the pattern occurs. -/
  | pattern (p : Pattern)
  /-- A token that passes a test; the name is for messages. -/
  | test (name : String) (passes : Token → Bool)

namespace Symbol

/-- Whether the symbol stands for a single token. -/
def isTerminal : Symbol → Bool
  | nonterminal _ => false
  | _ => true

/-- **Whether the symbol takes a token.** A nonterminal takes none. -/
def accepts (s : Symbol) (t : Token) : Bool :=
  match s with
  | nonterminal _ => false
  | literal text false => t.literal == text
  | literal text true => Text.lowercase t.literal == Text.lowercase text
  | kind name => t.kind == some name
  | pattern p => p.occursIn t.value
  | test _ passes => passes t

/-- A symbol that takes a token is terminal. -/
theorem isTerminal_of_accepts {s : Symbol} {t : Token} (h : s.accepts t = true) :
    s.isTerminal = true := by
  cases s <;> simp_all [accepts, isTerminal]

/-- The short form, as symbols stand in a rule. -/
def display : Symbol → String
  | nonterminal name => name
  | literal text false => Text.quoted text
  | literal text true => Text.quoted text ++ "i"
  | kind name => "%" ++ name
  | pattern p => "/" ++ p.source ++ "/"
  | test name _ => "<" ++ name ++ ">"

/-- The long form, which says what input a symbol asks for. -/
def description : Symbol → String
  | nonterminal name => name
  | literal text anyCase => display (literal text anyCase)
  | kind name => name ++ " token"
  | pattern p => "character matching /" ++ p.source ++ "/"
  | test name _ => "token matching " ++ name

end Symbol

end Earley
