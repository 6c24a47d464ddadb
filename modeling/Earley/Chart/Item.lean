import Earley.Grammar.Rule

/-!
# Items

An item is a rule under way: a dot separates the symbols that are already derived from those still
to come. Items are never merged, so each stands for one derivation of what is before its dot, and
an ambiguous input has several items that differ only in the values of the children.

An item that leaves the column in which it begins takes along where that is, since the items that
wait for its name stand there.

A derivation that takes no input may contain one of its own name that takes no input either, and so
on without end. Items that have taken no input keep the names that occur in them in this way, so
that a derivation which would repeat its own name can be left out.

## Main definitions

* `Outcome`: what has become of an item
* `Item`: a rule under way
* `Item.predicted`, `Item.shift`: a fresh item, and its dot moved over a token
* `Item.advance`, `Item.advanceFrom`: its dot moved over a finished item, in the column where it waits
  or into a later one
-/

namespace Earley

/-- **What has become of an item.** -/
inductive Outcome where
  /-- Not finished, or not looked at yet. -/
  | pending
  /-- Finished, and refused by the reducer of its rule. -/
  | rejected
  /-- Finished without input, and left out since its own name occurs inside. -/
  | subsumed
  /-- Finished with a value. -/
  | value (v : Value)
deriving DecidableEq, Repr

/-- The value of a finished item. -/
def Outcome.value? : Outcome → Option Value
  | value v => some v
  | _ => none

/-- **A rule under way.** -/
structure Item where
  rule : Rule
  /-- How many symbols are before the dot. -/
  dot : Nat := 0
  /-- The column in which the item begins. -/
  origin : Nat
  /-- The earlier column to which the item goes back when it is finished. An item has none as long as
  it stands in the column in which it begins. -/
  home : Option Nat := none
  /-- The values of the symbols before the dot, latest first. -/
  parsed : List Value := []
  outcome : Outcome := .pending
  /-- The names of the derivations without input inside an item without input. -/
  nulled : List String := []

namespace Item

/-- The name of the rule. -/
def name (item : Item) : String :=
  item.rule.name

/-- The symbol behind the dot. -/
def next? (item : Item) : Option Symbol :=
  item.rule.symbols[item.dot]?

/-- Whether the dot has reached the end. -/
def isComplete (item : Item) : Bool :=
  item.next?.isNone

/-- The values of the symbols before the dot in order. -/
def children (item : Item) : List Value :=
  item.parsed.reverse

/-- The rule with its dot, in written form. -/
def display (item : Item) : String :=
  item.rule.dotted item.dot

/-- A rule at its beginning. -/
def predicted (rule : Rule) (origin : Nat) : Item :=
  { rule, origin }

/-- The item with its dot moved over the token behind the column `index`. -/
def shift (index : Nat) (item : Item) (t : Token) : Item :=
  { rule := item.rule
    dot := item.dot + 1
    origin := item.origin
    home := item.home.or (some index)
    parsed := .token t :: item.parsed }

/-- **The item with its dot moved over a finished item** of value `v` that begins in the column
`index`, where both stand. If the moved item has taken no input, the name of the finished one and the
names inside it are added to the names kept. -/
def advance (index : Nat) (item done : Item) (v : Value) : Item :=
  { rule := item.rule
    dot := item.dot + 1
    origin := item.origin
    home := item.home
    parsed := v :: item.parsed
    nulled :=
      if item.origin = index then (done.name :: done.nulled).foldr List.insert item.nulled else [] }

/-- **The item with its dot moved over a finished item** of value `v`, from the earlier column `index`
in which that one begins. -/
def advanceFrom (index : Nat) (item : Item) (v : Value) : Item :=
  { rule := item.rule
    dot := item.dot + 1
    origin := item.origin
    home := item.home.or (some index)
    parsed := v :: item.parsed }

end Item

end Earley
