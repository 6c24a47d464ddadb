import Earley.Text.Extending
import Earley.Text.Printable

/-!
# Quoted text

A text between double quotes, on one line and legible whatever it holds. Quote and backslash get a
backslash; line ends, tabs and the null character have short forms; a character that leaves no mark
of its own, or that would be drawn on its neighbour, is written as its code point in hexadecimal.

## Main definitions

* `written`: how one character is written between the quotes
* `quoted`: a text in quotes
-/

namespace Earley.Text

/-- How a character is written between double quotes. -/
def written (c : Char) : String :=
  match c with
  | '\x00' => "\\0"
  | '\t' => "\\t"
  | '\r' => "\\r"
  | '\n' => "\\n"
  | '"' => "\\\""
  | '\\' => "\\\\"
  | _ =>
    if isExtending c || !isPrintable c then
      "\\u\x7b" ++ String.ofList (Nat.toDigits 16 c.toNat) ++ "\x7d"
    else
      String.singleton c

/-- **A text in double quotes.** -/
def quoted (s : String) : String :=
  "\"" ++ String.join (s.toList.map written) ++ "\""

end Earley.Text
