import Earley.Pattern.Reader

/-!
# Patterns

A pattern is a regular expression together with the text it was written as, which is how messages
show it.

## Main definitions

* `Pattern.ofSource?`: the pattern of a text
* `Pattern.occursIn`: whether it occurs anywhere in a text
-/

namespace Earley

/-- **A regular expression and its text.** -/
structure Pattern where
  source : String
  regex : Regex

namespace Pattern

/-- The pattern that a text stands for, if it is one. -/
def ofSource? (source : String) : Option Pattern :=
  (read? source).map fun regex => { source, regex }

/-- Whether the pattern occurs anywhere in a text. -/
def occursIn (p : Pattern) (text : String) : Bool :=
  p.regex.search text.toList

end Pattern

end Earley
