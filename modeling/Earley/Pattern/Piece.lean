import Earley.Pattern.CharClass
import Earley.Text.Decimal

/-!
# Pieces of patterns

The words of a pattern: a character, a class, a parenthesis, a repetition and so on.

## Main definitions

* `Piece`: a piece of a pattern
* `Piece.read`: the first piece of a list of glyphs
* `pieces`: all of them
-/

namespace Earley.Pattern

/-- **A piece of a pattern.** -/
inductive Piece where
  | char (c : Char)
  | bracket (set : CharSet)
  | any
  | start
  | stop
  | bar
  /-- Options for the rest of the group. -/
  | switch (letters : List Char)
  /-- The start of a group, with options for it. -/
  | opening (letters : List Char)
  | closing
  | times (least : Nat) (most : Option Nat)

/-- The bounds between the braces of a counted repetition. -/
def countBounds (inside : List Char) : Option (Nat × Option Nat) :=
  match inside.span (· != ',') with
  | (least, []) => do
    let n ← Text.natural? least
    return (n, some n)
  | (least, [_]) => do return (← Text.natural? least, none)
  | (least, _ :: most) => do
    let n ← Text.natural? least
    let m ← Text.natural? most
    if n ≤ m then return (n, some m) else none

/-- A question mark behind a repetition asks for short matches, which a search need not tell from
long ones. -/
def skipShort : List Glyph → List Glyph
  | .plain '?' :: rest => rest
  | rest => rest

/-- What follows an opening parenthesis: nothing special, or a question mark with options, where a
colon makes them those of the group and a closing parenthesis those of what follows. -/
def groupStart : List Glyph → Option (Piece × List Glyph)
  | .plain '?' :: rest =>
    let letters := (rest.map Glyph.char).takeWhile Char.isAlpha
    match rest.drop letters.length with
    | .plain ':' :: rest => some (.opening letters, rest)
    | .plain ')' :: rest => if letters = [] then none else some (.switch letters, rest)
    | _ => none
  | rest => some (.opening [], rest)

/-- The first piece of a pattern, and the glyphs behind it. -/
def Piece.read : List Glyph → Option (Piece × List Glyph)
  | [] => none
  | .shielded c :: rest => some (.char c, rest)
  | .plain c :: rest =>
    match c with
    | '.' => some (.any, rest)
    | '^' => some (.start, rest)
    | '$' => some (.stop, rest)
    | '|' => some (.bar, rest)
    | '(' => groupStart rest
    | ')' => some (.closing, rest)
    | '*' => some (.times 0 none, skipShort rest)
    | '+' => some (.times 1 none, skipShort rest)
    | '?' => some (.times 0 (some 1), skipShort rest)
    | '\x7b' =>
      match rest.span (· != .plain '\x7d') with
      | (inside, _ :: rest) => do
        let (least, most) ← countBounds (inside.map Glyph.char)
        return (.times least most, skipShort rest)
      | (_, []) => none
    | '[' => (CharClass.read rest).map fun (set, rest) => (.bracket set, rest)
    | c => some (.char c, rest)

/-- The pieces of a pattern. -/
def pieces (gs : List Glyph) : Option (List Piece) :=
  if gs = [] then
    some []
  else do
    let (piece, rest) ← Piece.read gs
    if rest.length < gs.length then return piece :: (← pieces rest) else none
termination_by gs.length

end Earley.Pattern
