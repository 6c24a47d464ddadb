import Earley.Parser.Feed
import Earley.Parser.History

/-!
# Steps and sessions

A parser can be told to take a chunk, to go back to a column, to save its last column and to go back
to a bookmark. A session is a row of such operations, from some parser on. Sessions differ in the
parsers that they begin with, in the operations that they allow and in what is written down of them
in a log; these are the terms of a session. What a session has at the beginning, and every operation
keeps that its terms allow, it has in the end.

## Main definitions

* `Operation`, `Parser.Step`: what a parser can be told to do, and what comes of it
* `Terms`: what a session begins with, what it allows, and what its log says
* `Parser.Session`: the parsers that a session comes to, with its log
* `Terms.free`: terms under which everything is allowed, and nothing is written down
* `Terms.feeding`: terms under which only feeding is allowed

## Main results

* `Parser.Session.invariant`: what every allowed operation keeps, the session keeps
* `Parser.Session.feeding_induction`: so does what every chunk keeps, where only chunks are fed
-/

namespace Earley

variable {Chunk Mark Log : Type} {lexer : Lexer Chunk Mark}

/-- **What a parser can be told to do.** -/
inductive Operation (Chunk Mark : Type) where
  | feed (fuel : Nat) (chunk : Chunk)
  | rewind (index : Nat)
  | save
  | restore (b : Bookmark Mark)

/-- **A step of a parser**: what comes of an operation. Saving changes nothing in the parser. -/
inductive Parser.Step : Parser lexer → Operation Chunk Mark → Fed lexer → Prop
  | feed {fuel : Nat} {p : Parser lexer} {chunk : Chunk} {fed : Fed lexer}
      (h : p.feed fuel chunk = some fed) : Step p (.feed fuel chunk) fed
  | rewind {index : Nat} {p q : Parser lexer} (h : p.rewind index = .ok q) :
      Step p (.rewind index) { parser := q }
  | save {p : Parser lexer} : Step p .save { parser := p }
  | restore {p : Parser lexer} (b : Bookmark Mark) : Step p (.restore b) { parser := p.restore b }

/-- **The terms of a session** of which a log is kept. -/
structure Terms (lexer : Lexer Chunk Mark) (Log : Type) where
  /-- The parsers that it may begin with. -/
  begins : Parser lexer → Prop
  /-- The log at the beginning. -/
  first : Log
  /-- Whether a parser may be told to do something, and what the log says when it has done it. -/
  follows : Log → Parser lexer → Operation Chunk Mark → Fed lexer → Log → Prop
  /-- Whether a bookmark may be restored that was saved from another parser of such a session, which
  has its own log, and what the log says then. -/
  borrows : Log → Log → Parser lexer → Log → Prop := fun _ _ _ _ => False

/-- **The parsers that a session comes to** on certain terms, with its log. -/
inductive Parser.Session (terms : Terms lexer Log) : Log → Parser lexer → Prop
  | start {p : Parser lexer} (h : terms.begins p) : Session terms terms.first p
  | step {log next : Log} {p : Parser lexer} {operation : Operation Chunk Mark} {fed : Fed lexer}
      (hp : Session terms log p) (hstep : p.Step operation fed)
      (h : terms.follows log p operation fed next) : Session terms next fed.parser
  | borrow {log other next : Log} {p saved : Parser lexer} (hp : Session terms log p)
      (hsaved : Session terms other saved) (h : terms.borrows log other saved next) :
      Session terms next (p.restore saved.save)

/-- **Terms under which a parser may be told to do anything**, and nothing is written down. The
bookmarks are those of parsers in such sessions. -/
def Terms.free (begins : Parser lexer → Prop) : Terms lexer Unit where
  begins := begins
  first := ()
  follows _ _ operation _ _ :=
    match operation with
    | .restore _ => False
    | _ => True
  borrows _ _ _ _ := True

/-- **Terms under which a parser is only fed**, with what the log says of each chunk. -/
def Terms.feeding (begins : Parser lexer → Prop) (first : Log)
    (follows : Log → Parser lexer → Chunk → Fed lexer → Log → Prop) : Terms lexer Log where
  begins := begins
  first := first
  follows log p operation fed next :=
    match operation with
    | .feed _ chunk => follows log p chunk fed next
    | _ => False

namespace Parser.Session

variable {terms : Terms lexer Log} {log : Log} {p saved : Parser lexer}

/-- **What every allowed operation keeps**, the session keeps. -/
theorem invariant {I : Log → Parser lexer → Prop} (h : Session terms log p)
    (hstart : ∀ p, terms.begins p → I terms.first p)
    (hstep : ∀ log next p operation fed, I log p → p.Step operation fed →
      terms.follows log p operation fed next → I next fed.parser)
    (hborrow : ∀ log other next p saved, I log p → I other saved →
      terms.borrows log other saved next → I next (p.restore saved.save)) : I log p := by
  induction h with
  | start h => exact hstart _ h
  | step _ hoperation h ih => exact hstep _ _ _ _ _ ih hoperation h
  | borrow _ _ h ih ihsaved => exact hborrow _ _ _ _ _ ih ihsaved h

/-- **What every chunk keeps**, the session keeps if it only feeds. -/
theorem feeding_induction {begins : Parser lexer → Prop} {first : Log}
    {follows : Log → Parser lexer → Chunk → Fed lexer → Log → Prop} {I : Log → Parser lexer → Prop}
    (h : Session (.feeding begins first follows) log p)
    (hstart : ∀ p, begins p → I first p)
    (hfeed : ∀ log next fuel p chunk fed, Session (.feeding begins first follows) log p → I log p →
      p.feed fuel chunk = some fed → follows log p chunk fed next → I next fed.parser) :
    I log p := by
  induction h with
  | start h => exact hstart _ h
  | step hp hoperation h ih =>
    cases hoperation with
    | feed hfed => exact hfeed _ _ _ _ _ _ hp ih hfed h
    -- nothing else is allowed
    | rewind | save | restore => exact False.elim h
  | borrow _ _ h => exact False.elim h

/-- A further step where nothing is written down. -/
theorem unlogged {terms : Terms lexer Unit} {operation : Operation Chunk Mark} {fed : Fed lexer}
    (hp : Session terms () p) (hstep : p.Step operation fed)
    (h : terms.follows () p operation fed ()) : Session terms () fed.parser :=
  .step hp hstep h

end Parser.Session

end Earley
