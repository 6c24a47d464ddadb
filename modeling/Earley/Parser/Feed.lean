import Earley.Parser.Basic
import Earley.Text.Quoted

/-!
# Feeding a parser

A chunk is taken token by token until it ends, the lexer fails, or a token comes that no item waits
for. Tokens before that stay taken.

## Main definitions

* `Parser.accept`, `Parser.refuse`: what a token that fits changes, and one that does not
* `Fed`: what comes of a chunk
* `Parser.feed`: a chunk of input
-/

namespace Earley

/-- **What comes of feeding a chunk**: the parser afterwards, and why input was refused, if it
was. -/
@[ext]
structure Fed {Chunk Mark : Type} (lexer : Lexer Chunk Mark) where
  parser : Parser lexer
  error : Option InputError := none

namespace Parser

variable {Chunk Mark : Type} {lexer : Lexer Chunk Mark}

/-- Gives up the bookmark before the last one, unless history is kept. -/
def forget (p : Parser lexer) : Parser lexer :=
  if p.keepHistory then p else { p with past := p.past.setIfInBounds (p.past.size - 1) none }

@[simp] theorem head_forget (p : Parser lexer) : p.forget.head = p.head := by
  unfold forget
  split <;> rfl

@[simp] theorem current_forget (p : Parser lexer) : p.forget.current = p.current :=
  congrArg Bookmark.index (head_forget p)

@[simp] theorem grammar_forget (p : Parser lexer) : p.forget.grammar = p.grammar := by
  unfold forget
  split <;> rfl

@[simp] theorem blocked_forget (p : Parser lexer) : p.forget.blocked = p.blocked := by
  unfold forget
  split <;> rfl

@[simp] theorem keepHistory_forget (p : Parser lexer) : p.forget.keepHistory = p.keepHistory := by
  unfold forget
  split <;> rfl

@[simp] theorem results_forget (p : Parser lexer) : p.forget.results = p.results := by
  unfold forget
  split <;> rfl

@[simp] theorem size_past_forget (p : Parser lexer) : p.forget.past.size = p.past.size := by
  unfold forget
  split <;> simp

/-- Nothing is given up twice. -/
@[simp] theorem forget_forget (p : Parser lexer) : p.forget.forget = p.forget := by
  unfold forget
  split
  · simp [*]
  · simp [*, Array.setIfInBounds_setIfInBounds]

/-- A parser that keeps its history gives up nothing. -/
theorem forget_eq_self {p : Parser lexer} (h : p.keepHistory = true) : p.forget = p :=
  if_pos h

/-- **Takes a token** that leads to a further column, the lexer having reached a mark. -/
def accept (p : Parser lexer) (chart : Chart) (mark : Mark) : Parser lexer :=
  { p with
    past := p.past.push (some p.head)
    head := { chart, resume := mark }
    stand := mark }

/-- Stops at input that is refused, the lexer having reached a mark. -/
def block (p : Parser lexer) (mark : Mark) : Parser lexer :=
  { p with blocked := true, stand := mark }

/-- How a report names an unexpected token. -/
def describeToken (t : Token) : String :=
  match t.kind with
  | some kind => kind ++ " token: " ++ Text.quoted t.value
  | none => Text.quoted t.value

/-- The headline of every report that can point at a token. -/
def headline : String := "Syntax error"

/-- **Refuses a token** of a chunk that began at `start`. -/
def refuse (p : Parser lexer) (chunk : Chunk) (start : Mark) (t : Token) (mark : Mark) :
    Fed lexer :=
  { parser := p.block mark
    error := some <| .unexpected t p.current <|
      p.head.chart.report (lexer.locate chunk start mark t headline) (describeToken t) }

/-- **Refuses input that the lexer cannot read**, in a chunk that began at `start`. -/
def refuseUnreadable (p : Parser lexer) (chunk : Chunk) (start : Mark) (e : LexError)
    (mark : Mark) : Fed lexer :=
  { parser := p.block mark
    error := some <|
      match e.token with
      | some t =>
        .unreadable t.literal p.current <|
          p.head.chart.report (lexer.locate chunk start mark t headline)
            ("input " ++ Text.quoted (String.ofList (t.literal.toList.take 1)) ++ " (lexer error)")
      | none => .unreadable "" p.current (p.head.chart.report e.message "input (lexer error)") }

/-- Takes the tokens of a chunk that began at `start`, and then comes to its end. -/
def consume (fuel : Nat) (chunk : Chunk) (start stand : Mark) (error : Option LexError) :
    List (Token × Mark) → Parser lexer → Option (Fed lexer)
  | [], p =>
    match error with
    | some e => some (p.refuseUnreadable chunk start e stand)
    | none => some { parser := refresh { p with stand } }
  | (t, mark) :: rest, p =>
    let p := p.forget
    match p.head.chart.shift p.grammar fuel t with
    | none => none
    | some chart =>
      if chart.head.isEmpty then
        some (p.refuse chunk start t mark)
      else
        consume fuel chunk start stand error rest (p.accept chart mark)

/-- **Feeds a chunk.** Closing a column takes at most `fuel` visits; there is no outcome if that is
not enough. -/
def feed (fuel : Nat) (p : Parser lexer) (chunk : Chunk) : Option (Fed lexer) :=
  let start := p.head.resume
  let reading := lexer.read start chunk
  consume fuel chunk start reading.stand reading.error reading.tokens { p with blocked := false }

end Parser

end Earley
