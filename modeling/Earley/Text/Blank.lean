import Earley.Text.CodePoints

/-!
# Blank characters

The characters that separate words: the property *White_Space*. It holds the line ends and the
spaces of all widths, and neither the zero-width space nor the byte order mark.

## Main definitions

* `isBlank`: whether a character is blank
-/

namespace Earley.Text

/-- The blank code points. -/
def blank : CodePoints :=
  [(0x9, 0xD), (0x20, 0x20), (0x85, 0x85), (0xA0, 0xA0), (0x1680, 0x1680), (0x2000, 0x200A),
   (0x2028, 0x2029), (0x202F, 0x202F), (0x205F, 0x205F), (0x3000, 0x3000)]

/-- Whether a character separates words. -/
def isBlank (c : Char) : Bool :=
  blank.has c.toNat

end Earley.Text
