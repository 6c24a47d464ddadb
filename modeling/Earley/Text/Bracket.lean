import Earley.Text.CodePoints

/-!
# Brackets

The characters that come in pairs of an opening and a closing one and nest: the paired brackets of
version 9 of the standard. Quotation marks and the signs `<` and `>` are not brackets.

## Main definitions

* `isBracket`: whether a character opens or closes a bracketed group
-/

namespace Earley.Text

/-- The code points of opening and closing brackets. -/
def brackets : CodePoints :=
  [(0x28, 0x29), (0x5B, 0x5B), (0x5D, 0x5D), (0x7B, 0x7B), (0x7D, 0x7D), (0xF3A, 0xF3D),
   (0x169B, 0x169C), (0x2045, 0x2046), (0x207D, 0x207E), (0x208D, 0x208E), (0x2308, 0x230B),
   (0x2329, 0x232A), (0x2768, 0x2775), (0x27C5, 0x27C6), (0x27E6, 0x27EF), (0x2983, 0x2998),
   (0x29D8, 0x29DB), (0x29FC, 0x29FD), (0x2E22, 0x2E29), (0x3008, 0x3011), (0x3014, 0x301B),
   (0xFE59, 0xFE5E), (0xFF08, 0xFF09), (0xFF3B, 0xFF3B), (0xFF3D, 0xFF3D), (0xFF5B, 0xFF5B),
   (0xFF5D, 0xFF5D), (0xFF5F, 0xFF60), (0xFF62, 0xFF63)]

/-- Whether a character opens or closes a bracketed group. -/
def isBracket (c : Char) : Bool :=
  brackets.has c.toNat

end Earley.Text
