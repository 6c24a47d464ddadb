import Earley.Token.Basic

/-!
# Tests on tokens

Properties of tokens that a grammar can ask for.

## Main definitions

* `Token.hasEvenSize`, `Token.isDigits`, `Token.isVowels`: tests on the value
* `Token.hasKind`, `Token.hasText`: tests on what a token carries
* `Token.startsLine`, `Token.hasOddOffset`: tests on its place
-/

namespace Earley.Token

/-- Whether the value takes an even number of bytes. -/
def hasEvenSize (t : Token) : Bool :=
  t.value.utf8ByteSize % 2 == 0

/-- Whether the value holds nothing but the digits `0` to `9`. -/
def isDigits (t : Token) : Bool :=
  t.value.toList.all Char.isDigit

/-- Whether the value is a stretch of the list of vowels. -/
def isVowels (t : Token) : Bool :=
  (List.range 6).any fun n => t.value.toList.isPrefixOf ("aeiou".toList.drop n)

/-- Whether the token has a kind. -/
def hasKind (t : Token) : Bool :=
  t.kind.isSome

/-- Whether the token has a source text that differs from its value. -/
def hasText (t : Token) : Bool :=
  t.text.isSome

/-- Whether the token begins a line. -/
def startsLine (t : Token) : Bool :=
  t.col == 1

/-- Whether the offset is odd. -/
def hasOddOffset (t : Token) : Bool :=
  t.offset % 2 == 1

end Earley.Token
