import Earley.Proofs.Parser.Abreast

/-!
# Dialogues

A reader tells a parser to take a chunk, to save, to go back to what was saved before, and to name
the values, and looks at the parser after each command. If the history is kept, more columns stay in
the table than if not. But these serve rewinding only: a chart carries all the columns that it was
made from, and feeding goes on from the chart of the last column. So the reader cannot tell whether
the history is kept.

## Main definitions

* `Command`, `Answer`: what a parser is told to do, and what it answers
* `Parser.look`: what a reader sees of a parser
* `Dialogue`: a parser with the bookmarks that were saved
* `Dialogue.transcript`: the answers to a row of commands, with what is seen after each

## Main results

* `Dialogue.Alike.perform`: alike dialogues give the same answer, and stay alike
* `Dialogue.transcript_start`: the transcript does not depend on whether the history is kept
-/

namespace Earley

variable {Chunk Mark : Type} {lexer : Lexer Chunk Mark} {p q : Parser lexer}

/-- **What a parser is told to do.** Bookmarks are numbered as they were saved. -/
inductive Command (Chunk : Type) where
  | feed (chunk : Chunk)
  | save
  | restore (number : Nat)
  | finish

/-- **What a parser answers.** -/
inductive Answer (Mark : Type) where
  /-- A chunk was taken, or refused. -/
  | fed (error : Option InputError)
  | saved (b : Bookmark Mark)
  | restored
  /-- There is no bookmark of this number. -/
  | unsaved (number : Nat)
  | values (vs : List Value)

/-- **What a reader sees of a parser**: the number of the last column, this column, the results, and
the values of the input. -/
structure Look where
  current : Nat
  column : Option Chart
  results : List Value
  values : List Value

/-- How a parser looks to a reader. -/
def Parser.look (p : Parser lexer) : Look where
  current := p.current
  column := p.column? p.current
  results := p.results
  values := p.finish

/-- **A parser with the bookmarks that were saved from it.** -/
structure Dialogue {Chunk Mark : Type} (lexer : Lexer Chunk Mark) where
  parser : Parser lexer
  saved : List (Bookmark Mark) := []

namespace Dialogue

/-- **Carries out a command.** There is no outcome if closing a column takes more than `fuel`
visits. -/
def perform (fuel : Nat) (d : Dialogue lexer) :
    Command Chunk → Option (Answer Mark × Dialogue lexer)
  | .feed chunk =>
    (d.parser.feed fuel chunk).map fun fed => (.fed fed.error, { d with parser := fed.parser })
  | .save => some (.saved d.parser.save, { d with saved := d.saved ++ [d.parser.save] })
  | .restore number =>
    match d.saved[number]? with
    | some b => some (.restored, { d with parser := d.parser.restore b })
    | none => some (.unsaved number, d)
  | .finish => some (.values d.parser.finish, d)

/-- **The answers to a row of commands**, with what a reader sees after each. -/
def transcript (fuel : Nat) : List (Command Chunk) → Dialogue lexer →
    Option (List (Answer Mark × Look))
  | [], _ => some []
  | command :: rest, d =>
    (d.perform fuel command).bind fun (answer, next) =>
      (transcript fuel rest next).map ((answer, next.parser.look) :: ·)

end Dialogue

/-! ## Dialogues alike -/

/-- **Parsers alike**: they are abreast, with the same results, and blocked or not alike. Their
tables may differ. -/
structure Parser.Alike (p q : Parser lexer) : Prop extends p.Abreast q where
  blocked : p.blocked = q.blocked
  results : p.results = q.results
  placed : p.Placed
  placed' : q.Placed

/-- Dialogues alike, with the same bookmarks. -/
structure Dialogue.Alike (d e : Dialogue lexer) : Prop where
  parser : d.parser.Alike e.parser
  saved : d.saved = e.saved

namespace Parser.Alike

theorem finish_congr (h : p.Alike q) : p.finish = q.finish := by
  rw [finish, finish, h.blocked, h.head, h.grammar]

/-- **Parsers alike look the same.** -/
theorem look_congr (h : p.Alike q) : p.look = q.look := by
  rw [look, look, h.finish_congr, h.results, h.placed.column?_current, h.placed'.column?_current,
    h.current, h.head]

/-- A chunk has the same answer, and leads to parsers alike. -/
theorem feed (h : p.Alike q) (fuel : Nat) (chunk : Chunk) :
    Option.Rel (fun fed other : Fed lexer => fed.error = other.error ∧ fed.parser.Alike other.parser)
      (p.feed fuel chunk) (q.feed fuel chunk) := by
  refine (h.feed_placed h.placed h.placed' fuel chunk).imp fun fed other hfed hother hnext => ?_
  obtain ⟨habreast, hplaced, hplaced', hagrees⟩ := hnext
  refine ⟨hagrees.error, habreast, ?_, ?_, hplaced, hplaced'⟩
  · rw [blocked_feed hfed, blocked_feed hother, hagrees.error]
  · -- behind refused input the results are those from before
    by_cases herror : fed.error = none
    · exact hagrees.results herror
    · rw [results_feed hfed herror, results_feed hother (hagrees.error ▸ herror), h.results]

/-- Going back to a bookmark leads to parsers alike. -/
theorem restore (h : p.Alike q) (b : Bookmark Mark) : (p.restore b).Alike (q.restore b) where
  grammar := h.grammar
  head := rfl
  blocked := rfl
  results := congrArg b.chart.results (congrArg Grammar.start h.grammar)
  placed := h.placed.restore b
  placed' := h.placed'.restore b

end Parser.Alike

namespace Dialogue

/-- **Dialogues alike give the same answer**, and stay alike. -/
theorem Alike.perform {d e : Dialogue lexer} (h : d.Alike e) (fuel : Nat)
    (command : Command Chunk) :
    Option.Rel (fun x y => x.1 = y.1 ∧ x.2.Alike y.2) (d.perform fuel command)
      (e.perform fuel command) := by
  cases command with
  | feed chunk =>
    refine (h.parser.feed fuel chunk).map fun fed other hfed => ?_
    exact ⟨congrArg Answer.fed hfed.1, hfed.2, h.saved⟩
  | save =>
    have hsave : d.parser.save = e.parser.save := h.parser.head
    exact .some ⟨congrArg Answer.saved hsave, h.parser, by rw [h.saved, hsave]⟩
  | restore number =>
    simp only [Dialogue.perform, ← h.saved]
    cases d.saved[number]? with
    | none => exact .some ⟨rfl, h⟩
    | some b => exact .some ⟨rfl, h.parser.restore b, rfl⟩
  | finish => exact .some ⟨congrArg Answer.values h.parser.finish_congr, h⟩

/-- Dialogues alike have one transcript. -/
theorem Alike.transcript_eq {d e : Dialogue lexer} (h : d.Alike e) (fuel : Nat)
    (commands : List (Command Chunk)) :
    d.transcript fuel commands = e.transcript fuel commands := by
  induction commands generalizing d e with
  | nil => rfl
  | cons command rest ih =>
    refine (h.perform fuel command).bind_eq fun x y hnext => ?_
    obtain ⟨hanswer, halike⟩ := hnext
    simp only [hanswer, halike.parser.look_congr, ih halike]

/-- Fresh parsers are alike, whether they keep their history or not. -/
theorem alike_start (lexer : Lexer Chunk Mark) (g : Grammar) (fuel : Nat) :
    Option.Rel Parser.Alike (Parser.start lexer g true fuel) (Parser.start lexer g false fuel) := by
  have hsame : Option.Rel (fun p q : Parser lexer => p.Abreast q ∧ p.results = q.results)
      (Parser.start lexer g true fuel) (Parser.start lexer g false fuel) := by
    unfold Parser.start
    cases Chart.initial g fuel with
    | none => exact .none
    | some chart => exact .some ⟨⟨rfl, rfl⟩, rfl⟩
  refine hsame.imp fun p q hp hq h => ?_
  have hopen : p.blocked = false := (Parser.fresh_of_start hp).2.2.2.1
  have hopen' : q.blocked = false := (Parser.fresh_of_start hq).2.2.2.1
  exact ⟨h.1, hopen.trans hopen'.symm, h.2, Parser.placed_of_start hp, Parser.placed_of_start hq⟩

/-- **A reader cannot tell whether the history is kept**, from what is seen of a fresh parser and
from what is answered and seen from then on. -/
theorem transcript_start (lexer : Lexer Chunk Mark) (g : Grammar) (bound fuel : Nat)
    (commands : List (Command Chunk)) :
    (Parser.start lexer g true bound).map (fun p =>
        (p.look, transcript fuel commands { parser := p })) =
      (Parser.start lexer g false bound).map fun p =>
        (p.look, transcript fuel commands { parser := p }) := by
  rw [Option.map_eq_bind, Option.map_eq_bind]
  refine (alike_start lexer g bound).bind_eq fun p q h => ?_
  have halike : Dialogue.Alike { parser := p } { parser := q } := ⟨h, rfl⟩
  simp only [Function.comp_apply, h.look_congr, halike.transcript_eq fuel commands]

/-- Column 0 is given up when the second letter comes, and is not missed. -/
example : (Parser.start characters.toLexer Parser.twoLines false 9).any (fun p =>
    (transcript 9 [.feed "a", .save, .feed "\nx", .restore 0, .feed "\nb", .finish]
      { parser := p }).any fun answers =>
        answers.map (fun answer => answer.2.current) == [1, 1, 2, 1, 3, 3]) = true := by
  decide +kernel

end Dialogue

end Earley
