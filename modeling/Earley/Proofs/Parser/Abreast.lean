import Earley.Proofs.Parser.Rewinding

/-!
# Parsers abreast

What comes of further input depends on the grammar and on the last bookmark of a parser: the chart
up to its last column, and the mark from which the lexer goes on. Two parsers that have these in
common answer all further chunks alike, whatever else their tables hold.

A parser that goes back to a bookmark has it as its last one. So it is abreast of the parser that
the bookmark was saved from, and all that was done since is undone.

## Main definitions

* `Parser.Abreast`, `Fed.Abreast`: parsers that stand at one column, and what comes of one chunk
* `Fed.Agrees`: outcomes that look the same to a reader

## Main results

* `Parser.Abreast.feed`: one chunk leads abreast again, with the same error
* `Parser.Abreast.feeds`: all chunks are answered alike
* `Parser.restore_save`: going back to a bookmark undoes all that was done since
-/

namespace Option.Rel

variable {α β γ δ : Type*} {r r' : α → β → Prop} {s : γ → δ → Prop} {a : Option α} {b : Option β}

theorem imp (h : Option.Rel r a b) (hr : ∀ x y, a = .some x → b = .some y → r x y → r' x y) :
    Option.Rel r' a b := by
  cases h with
  | none => exact .none
  | some h => exact .some (hr _ _ rfl rfl h)

theorem map {f : α → γ} {f' : β → δ} (h : Option.Rel r a b) (hf : ∀ x y, r x y → s (f x) (f' y)) :
    Option.Rel s (a.map f) (b.map f') := by
  cases h with
  | none => exact .none
  | some h => exact .some (hf _ _ h)

theorem bind {f : α → Option γ} {f' : β → Option δ} (h : Option.Rel r a b)
    (hf : ∀ x y, r x y → Option.Rel s (f x) (f' y)) : Option.Rel s (a.bind f) (b.bind f') := by
  cases h with
  | none => exact .none
  | some h => exact hf _ _ h

theorem bind_eq {f : α → Option γ} {f' : β → Option γ} (h : Option.Rel r a b)
    (hf : ∀ x y, r x y → f x = f' y) : a.bind f = b.bind f' := by
  cases h with
  | none => rfl
  | some h => exact hf _ _ h

end Option.Rel

namespace Earley

variable {Chunk Mark : Type} {lexer : Lexer Chunk Mark} {g : Grammar} {p q : Parser lexer}
  {halt other : Halt lexer}

/-- **Parsers abreast**: they have one grammar, and stand at one column from which the lexer goes on
at one mark. -/
structure Parser.Abreast (p q : Parser lexer) : Prop where
  grammar : p.grammar = q.grammar
  head : p.head = q.head

/-- Runs that end abreast, at the same token. -/
structure Halt.Abreast (halt other : Halt lexer) : Prop where
  parser : halt.parser.Abreast other.parser
  refused : halt.refused = other.refused

/-- **Chunks that lead abreast**, with the same error. -/
structure Fed.Abreast (fed other : Fed lexer) : Prop where
  parser : fed.parser.Abreast other.parser
  error : fed.error = other.error

/-- **Outcomes that look the same**: the errors, the last columns, the marks from which the lexer
goes on, and the results of what is taken. -/
structure Fed.Agrees (fed other : Fed lexer) : Prop where
  error : fed.error = other.error
  current : fed.parser.current = other.parser.current
  column : fed.parser.column? fed.parser.current = other.parser.column? other.parser.current
  resume : fed.parser.head.resume = other.parser.head.resume
  results : fed.error = none → fed.parser.results = other.parser.results

namespace Parser

/-! ## One chunk -/

namespace Abreast

theorem forget (h : p.Abreast q) : p.forget.Abreast q.forget where
  grammar := by rw [grammar_forget, grammar_forget, h.grammar]
  head := by rw [head_forget, head_forget, h.head]

theorem extend (h : p.Abreast q) (chart : Chart) (mark : Mark) :
    (p.extend chart mark).Abreast (q.extend chart mark) :=
  ⟨h.grammar, rfl⟩

theorem current (h : p.Abreast q) : p.current = q.current :=
  congrArg Bookmark.index h.head

/-- Tokens lead abreast. -/
theorem run (h : p.Abreast q) (fuel : Nat) (tokens : List (Token × Mark)) :
    Option.Rel Halt.Abreast (run fuel tokens p) (run fuel tokens q) := by
  induction tokens generalizing p q with
  | nil => exact .some ⟨h, rfl⟩
  | cons token rest ih =>
    simp only [Parser.run, ← h.grammar, ← h.head]
    cases p.head.chart.shift p.grammar fuel token.1 with
    | none => exact .none
    | some chart =>
      by_cases hempty : chart.head.isEmpty = true
      · simp only [hempty, if_true]
        exact .some ⟨h.forget, rfl⟩
      · simp only [hempty]
        exact ih (h.forget.extend chart token.2)

end Abreast

end Parser

/-- Runs that end abreast at the same token have the same error, if they were over one chunk. -/
theorem Halt.Abreast.conclude (h : halt.Abreast other) (chunk : Chunk) (start : Mark)
    (reading : Reading Mark) :
    (halt.conclude chunk start reading).Abreast (other.conclude chunk start reading) where
  parser :=
    ⟨by simp only [Parser.grammar_conclude, h.parser.grammar],
      by simp only [Parser.head_conclude, h.parser.head]⟩
  error := by
    unfold Halt.conclude
    rw [← h.refused]
    cases halt.refused with
    | some token => simp [Parser.refuse, h.parser.head, h.parser.current]
    | none =>
      cases reading.error with
      | none => rfl
      | some e => simp [Parser.refuseUnreadable, h.parser.head, h.parser.current]

namespace Parser

/-- **One chunk leads abreast again.** -/
theorem Abreast.feed (h : p.Abreast q) (fuel : Nat) (chunk : Chunk) :
    Option.Rel Fed.Abreast (p.feed fuel chunk) (q.feed fuel chunk) := by
  have hunblock : p.unblock.Abreast q.unblock := ⟨h.grammar, h.head⟩
  rw [feed_eq_map, feed_eq_map, ← h.head]
  exact (hunblock.run fuel _).map fun _ _ hhalt => hhalt.conclude chunk p.head.resume _

/-- **Chunks that lead abreast look the same.** -/
theorem Abreast.feed_placed (h : p.Abreast q) (hp : p.Placed) (hq : q.Placed) (fuel : Nat)
    (chunk : Chunk) :
    Option.Rel
      (fun fed other : Fed lexer =>
        fed.parser.Abreast other.parser ∧ fed.parser.Placed ∧ other.parser.Placed ∧
          fed.Agrees other)
      (p.feed fuel chunk) (q.feed fuel chunk) := by
  refine (h.feed fuel chunk).imp fun fed other hfed hother habreast => ?_
  have hplaced := hp.feed hfed
  have hplaced' := hq.feed hother
  refine ⟨habreast.parser, hplaced, hplaced', habreast.error, habreast.parser.current, ?_, ?_, ?_⟩
  · rw [hplaced.column?_current, hplaced'.column?_current, habreast.parser.head]
  · rw [habreast.parser.head]
  · intro herror
    rw [results_of_taken hfed herror, results_of_taken hother (habreast.error ▸ herror),
      habreast.parser.head, habreast.parser.grammar]

/-- **All chunks are answered alike** by parsers that are abreast. -/
theorem Abreast.feeds (h : p.Abreast q) (hp : p.Placed) (hq : q.Placed) (fuel : Nat)
    (chunks : List Chunk) :
    Option.Rel (List.Forall₂ Fed.Agrees) (feeds fuel chunks p) (feeds fuel chunks q) := by
  induction chunks generalizing p q with
  | nil => exact .some .nil
  | cons chunk rest ih =>
    refine (h.feed_placed hp hq fuel chunk).bind fun fed other hfeed => ?_
    obtain ⟨habreast, hfed, hother, hagrees⟩ := hfeed
    exact (ih habreast hfed hother).map fun _ _ => .cons hagrees

/-! ## Going back -/

/-- **Going back to a bookmark undoes all that was done since.** Wherever a parser was when it was
saved, behind refused input too, and whatever it was told to do afterwards: with the bookmark it is
at that column again, with the results of this column, and it answers all further chunks as it would
have answered them then. -/
theorem restore_save {keepHistory : Bool} {bound : Nat} {fresh : Parser lexer}
    (hstart : start lexer g keepHistory bound = some fresh) (hp : fresh.Leads p)
    (hq : p.Leads q) :
    (q.restore p.save).current = p.current ∧
      (q.restore p.save).column? p.current = p.column? p.current ∧
      (q.restore p.save).head.resume = p.head.resume ∧
      (∃ chart, p.column? p.current = some chart ∧
        (q.restore p.save).results = chart.results g.start) ∧
      ∀ more chunks, Option.Rel (List.Forall₂ Fed.Agrees) (feeds more chunks p)
        (feeds more chunks (q.restore p.save)) := by
  have hplaced : p.Placed := hp.placed (placed_of_start hstart)
  have hrestored : (q.restore p.save).Placed := (hq.placed hplaced).restore p.save
  have hgrammar : q.grammar = p.grammar := hq.frame.1
  have hg : p.grammar = g := hp.frame.1.trans (fresh_of_start hstart).1
  have hcolumn := hplaced.column?_current
  have habreast : p.Abreast (q.restore p.save) := ⟨hgrammar.symm, rfl⟩
  refine ⟨rfl, ?_, rfl, ⟨p.head.chart, hcolumn, ?_⟩, habreast.feeds hplaced hrestored⟩
  · rw [hcolumn]
    exact hrestored.column?_current
  · have hresults : (q.restore p.save).results = p.head.chart.results q.grammar.start := rfl
    rw [hresults, hgrammar, hg]

/-- A bookmark from behind a letter that was refused, with which the parser comes back from the
beginning to that letter. -/
theorem restore_save_twoLines :
    ∃ fresh p q : Parser characters.toLexer,
      start characters.toLexer twoLines true 9 = some fresh ∧ fresh.Leads p ∧ p.Leads q ∧
        p.blocked = true ∧ p.current = 1 ∧ q.current = 0 ∧ (q.restore p.save).current = 1 ∧
          Option.Rel (List.Forall₂ Fed.Agrees) (feeds 9 ["\nb", "c"] p)
            (feeds 9 ["\nb", "c"] (q.restore p.save)) := by
  have hrun : (start characters.toLexer twoLines true 9).any (fun fresh =>
      (fresh.feed 9 "ax").any fun fed => fed.parser.blocked && fed.parser.current == 1 &&
        (fed.parser.feed 9 "\n").any fun later =>
          (later.parser.rewind 0).toOption.any fun q => q.current == 0) = true := by
    decide +kernel
  obtain ⟨fresh, hfresh, hrun⟩ := (Option.any_eq_true _ _).mp hrun
  obtain ⟨fed, hfed, hrun⟩ := (Option.any_eq_true _ _).mp hrun
  obtain ⟨hsound, hrun⟩ := (Bool.and_eq_true _ _).mp hrun
  obtain ⟨later, hlater, hrun⟩ := (Option.any_eq_true _ _).mp hrun
  obtain ⟨q, hrewind, hzero⟩ := exists_of_any_rewind hrun
  have hsound : fed.parser.blocked = true ∧ fed.parser.current = 1 := by simpa using hsound
  have hp : fresh.Leads fed.parser := Leads.refl.step (.feed hfed)
  have hback : fed.parser.Leads q := (Leads.refl.step (.feed hlater)).step (.rewind hrewind)
  obtain ⟨hcurrent, -, -, -, hfeeds⟩ := restore_save hfresh hp hback
  exact ⟨fresh, fed.parser, q, hfresh, hp, hback, hsound.1, hsound.2, by simpa using hzero,
    hcurrent.trans hsound.2, hfeeds 9 _⟩

end Parser

end Earley
