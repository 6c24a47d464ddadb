import Earley.Pattern.CharSet

/-!
# Regular expressions and their search

A search reads the text once and moves marks through the expression. A mark at a set says that its
character has just been read on the way of some match. Between two characters, a mark that waits in
front of an expression passes through whatever matches the empty text there; the next character
carries it onto the sets it meets. A new mark is put in front of the whole expression at every
place, and a text contains a match when some mark leaves the expression behind.

## Main definitions

* `Regex`: regular expressions, with marks
* `Regex.times`: repetitions
* `Regex.leaves`: whether a mark leaves an expression
* `Regex.shift`: the marks behind the next character
* `Regex.search`: whether a text contains a match
-/

namespace Earley

/-- **Regular expressions**, with the marks of a search. -/
inductive Regex where
  /-- Matches the empty text everywhere. -/
  | empty
  /-- Matches one character of a set. The mark says that it has just been read. -/
  | one (set : CharSet) (marked : Bool := false)
  /-- Matches the empty text at the start of the whole text. -/
  | start
  /-- Matches the empty text at the end of the whole text. -/
  | stop
  | seq (left right : Regex)
  | alt (left right : Regex)
  /-- Matches `body` once or several times in a row. -/
  | plus (body : Regex)

namespace Regex

/-- Either `r` or the empty text. -/
def opt (r : Regex) : Regex :=
  alt r empty

/-- `n` copies of `r` in front of an expression. -/
def copies (r : Regex) : Nat → Regex → Regex
  | 0, tail => tail
  | n + 1, tail => seq r (copies r n tail)

/-- At most `n` copies of `r`. -/
def upTo (r : Regex) : Nat → Regex
  | 0 => empty
  | n + 1 => opt (seq r (upTo r n))

/-- **Repetition**: at least `least` times and, if `most` is given, at most that often. -/
def times (r : Regex) (least : Nat) (most : Option Nat) : Regex :=
  match most, least with
  | some most, least => r.copies least (r.upTo (most - least))
  | none, 0 => opt (plus r)
  | none, least + 1 => r.copies least (plus r)

/-- **A place in a text**, as far as anchors can tell places apart. -/
structure Place where
  atStart : Bool
  atEnd : Bool

/-- **Whether a mark leaves an expression** at a place: one of those inside it, or the one in front
of it if `entering` holds. -/
def leaves (place : Place) (entering : Bool) : Regex → Bool
  | empty => entering
  | one _ marked => marked
  | start => entering && place.atStart
  | stop => entering && place.atEnd
  | seq left right => right.leaves place (left.leaves place entering)
  | alt left right => left.leaves place entering || right.leaves place entering
  | plus body => body.leaves place entering

/-- **The marks behind the next character**, from those at a place. A mark that leaves the body of a
repetition may enter it again. -/
def shift (place : Place) (c : Char) (entering : Bool) : Regex → Regex
  | empty => empty
  | one set _ => one set (entering && set.has c)
  | start => start
  | stop => stop
  | seq left right =>
    seq (left.shift place c entering) (right.shift place c (left.leaves place entering))
  | alt left right => alt (left.shift place c entering) (right.shift place c entering)
  | plus body => plus (body.shift place c (entering || body.leaves place false))

/-- Whether a mark leaves the expression at a place of the rest of a text, or did so at none before
and a new one enters at each. -/
def searchFrom (atStart : Bool) (r : Regex) : List Char → Bool
  | [] => r.leaves { atStart, atEnd := true } true
  | c :: rest =>
    let place : Place := { atStart, atEnd := false }
    r.leaves place true || (r.shift place c true).searchFrom false rest

/-- **Search**: whether a text contains a match of an expression without marks. -/
def search (r : Regex) (text : List Char) : Bool :=
  r.searchFrom true text

end Regex

end Earley
