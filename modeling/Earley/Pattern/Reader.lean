import Earley.Pattern.Piece
import Earley.Pattern.Regex

/-!
# Reading patterns

A pattern is written with characters that stand for themselves, `.` for any character but the line
end, classes such as `[a-z]`, `[^a-z]` and `[a-z--u]`, the anchors `^` and `$`, groups, `|` between
alternatives, and the repetitions `?`, `*`, `+` and `{2,5}`. A backslash takes the meaning from the
sign behind it. `(?s)` lets `.` match the line end too and `(?i)` makes letters match in either
case; both hold to the end of the group they stand in.

Reading goes in three steps: characters become glyphs, which know whether a backslash protects them;
glyphs become pieces, such as a class or an opening parenthesis; pieces are put together on a stack
of open groups.

## Main definitions

* `GroupOptions`: what `(?s)` and `(?i)` change
* `Part`: an expression with the depth of its nesting
* `Draft`, `Draft.add`: groups under construction
* `Pattern.read?`: the expression that a text stands for, if it is one
-/

namespace Earley.Pattern

/-- **The options of a group**: whether letters match in either case, and whether `.` matches the
line end. -/
structure GroupOptions where
  anyCase : Bool := false
  dotAll : Bool := false

/-- The options that a list of letters adds. No letter stands twice. -/
def GroupOptions.set? (options : GroupOptions) : List Char → Option GroupOptions
  | [] => some options
  | 'i' :: rest => if 'i' ∈ rest then none else set? { options with anyCase := true } rest
  | 's' :: rest => if 's' ∈ rest then none else set? { options with dotAll := true } rest
  | _ => none

/-- **A part of a pattern.** -/
structure Part where
  regex : Regex
  /-- How deeply groups, repetitions, classes and lists nest in it. -/
  depth : Nat := 0
  /-- Whether a repetition may follow. Options cannot be repeated. -/
  repeatable : Bool := true

namespace Part

/-- How deeply a set nests: several spans are a list, and an operator stands above its operands. -/
def setDepth : CharSet → Nat
  | .spans _ table => if 1 < table.length then 1 else 0
  | .outside set => setDepth set
  | .combined _ left right => max (setDepth left) (setDepth right) + 1

/-- Parts, latest first, joined into one. A part that stands alone remains as it is. -/
def join (combine : Regex → Regex → Regex) : List Part → Part
  | [] => { regex := .empty }
  | [part] => part
  | last :: parts =>
    { regex := parts.foldl (fun rest part => combine part.regex rest) last.regex
      depth := parts.foldl (fun depth part => max depth part.depth) last.depth + 1 }

end Part

/-- **A group under construction**: the alternatives that are complete and the parts of the one that
is not, both latest first. -/
structure Draft where
  branches : List Part := []
  parts : List Part := []
  options : GroupOptions := {}

namespace Draft

/-- The open alternative. -/
def branch (draft : Draft) : Part :=
  Part.join .seq draft.parts

/-- The whole group. -/
def body (draft : Draft) : Part :=
  Part.join .alt (draft.branch :: draft.branches)

/-- Adds a part to the open alternative. -/
def push (draft : Draft) (part : Part) : Draft :=
  { draft with parts := part :: draft.parts }

/-- Adds a set of characters. -/
def pushSet (draft : Draft) (set : CharSet) (depth : Nat) : Draft :=
  draft.push { regex := .one (if draft.options.anyCase then set.inAnyCase else set), depth }

/-- Adds a piece to the innermost of the open groups. A repetition needs a part to repeat, and a
closing parenthesis a group to close. -/
def add (outer : List Draft) (draft : Draft) : Piece → Option (List Draft × Draft)
  | .char c => some (outer, draft.pushSet (.single c) 0)
  | .bracket set => some (outer, draft.pushSet set (Part.setDepth set + 1))
  | .any =>
    let set := if draft.options.dotAll then CharSet.all else CharSet.allButLineEnd
    some (outer, draft.push { regex := .one set })
  | .start => some (outer, draft.push { regex := .start })
  | .stop => some (outer, draft.push { regex := .stop })
  | .bar => some (outer, { draft with branches := draft.branch :: draft.branches, parts := [] })
  | .switch letters => do
    let options ← draft.options.set? letters
    return (outer, { draft with options }.push { regex := .empty, repeatable := false })
  | .opening letters => do
    let options ← draft.options.set? letters
    return (draft :: outer, { options })
  | .closing =>
    match outer with
    | [] => none
    | next :: outer =>
      some (outer, next.push { regex := draft.body.regex, depth := draft.body.depth + 1 })
  | .times least most =>
    match draft.parts with
    | [] => none
    | part :: parts =>
      if part.repeatable then
        let part := { regex := part.regex.times least most, depth := part.depth + 1 }
        some (outer, { draft with parts := part :: parts })
      else
        none

/-- Adds pieces in order, and closes the outermost group at the end. -/
def build (outer : List Draft) (draft : Draft) : List Piece → Option Part
  | [] => if outer.isEmpty then some draft.body else none
  | piece :: rest =>
    match add outer draft piece with
    | some (outer, draft) => build outer draft rest
    | none => none

end Draft

/-- How deeply a pattern may nest. -/
def depthLimit : Nat := 250

/-- **The regular expression that a text stands for**, if it is one and does not nest too deeply. -/
def read? (source : String) : Option Regex := do
  let part ← Draft.build [] {} (← pieces (← glyphs source.toList))
  if part.depth ≤ depthLimit then return part.regex else none

end Earley.Pattern
