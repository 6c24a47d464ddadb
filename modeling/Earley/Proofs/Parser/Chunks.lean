import Earley.Proofs.Lexer.Characters
import Earley.Proofs.Lexer.Words
import Earley.Proofs.Parser.Consumption
import Earley.Proofs.Parser.Run

/-!
# Chunks in two parts

A parser goes on from the mark behind the last token that it has taken. If the lexer reads the two
parts of a chunk in this way as it reads the whole, then the parts lead to the same columns as the
whole, and what is refused is refused for the same reason at the same place. Only the excerpt in the
report shows another chunk, and the results that a refusal leaves behind are those of the last chunk
that was taken.

## Main definitions

* `Lexer.Joins`: two parts of a chunk read as the whole
* `InputError.withHeadline`: an error with another excerpt
* `Fed.Alike`: outcomes that differ in no more than that

## Main results

* `Parser.feed_joins`: two parts that read as the whole have an outcome like that of the whole
* `Parser.feed_append`: characters may be cut anywhere
* `Parser.feed_append_words`: words may be cut in front of a blank, but not behind one
-/

namespace Earley

variable {Chunk Mark : Type} {lexer : Lexer Chunk Mark} {fuel : Nat} {whole front back : Chunk}
  {p : Parser lexer} {fed : Fed lexer}

/-- **Two parts of a chunk read as the whole**: the first part is read to its end, and the second
one, from the mark behind the tokens of the first, gives the other tokens of the whole. -/
structure Lexer.Joins (lexer : Lexer Chunk Mark) (start : Mark) (whole front back : Chunk) :
    Prop where
  error_front : (lexer.read start front).error = none
  tokens : (lexer.read start whole).tokens = (lexer.read start front).tokens ++
    (lexer.read (markBehind start (lexer.read start front).tokens) back).tokens
  error : (lexer.read start whole).error =
    (lexer.read (markBehind start (lexer.read start front).tokens) back).error

/-- The same error under another headline. -/
def InputError.withHeadline (e : InputError) (headline : String) : InputError :=
  match e with
  | unreadable text offset report => unreadable text offset { report with headline }
  | unexpected token offset report => unexpected token offset { report with headline }

/-- **Outcomes alike**: they differ at most in where the lexer stands, in the headline of the error
and, if there is an error, in the results from before. -/
structure Fed.Alike (fed other : Fed lexer) : Prop where
  parser : fed.parser = other.parser.annotate fed.parser.stand fed.parser.results
  results : other.error = none → fed.parser.results = other.parser.results
  error : fed.error.map (·.withHeadline "") = other.error.map (·.withHeadline "")

/-- Outcomes of one halt are alike, whatever the chunks were and whatever results there were before,
if the lexer fails alike behind tokens that are all taken. -/
theorem Halt.conclude_alike (halt : Halt lexer) (chunk chunk' : Chunk) (start start' : Mark)
    {reading reading' : Reading Mark}
    (herror : halt.refused = none → reading'.error = reading.error) (stand : Mark)
    (results : List Value) :
    (Halt.conclude chunk' start' reading'
        { halt with parser := halt.parser.annotate stand results }).Alike
      (halt.conclude chunk start reading) := by
  unfold Halt.conclude
  cases hrefused : halt.refused with
  | some token =>
    refine ⟨rfl, fun hnone => absurd hnone (Option.some_ne_none _), ?_⟩
    simp [Parser.refuse, InputError.withHeadline, Chart.report, Parser.current]
  | none =>
    simp only [herror hrefused]
    cases reading.error with
    | none => exact ⟨rfl, fun _ => rfl, rfl⟩
    | some e =>
      refine ⟨rfl, fun hnone => absurd hnone (Option.some_ne_none _), ?_⟩
      cases htoken : e.token with
      | none =>
        simp [Parser.refuseUnreadable, htoken, InputError.withHeadline, Chart.report,
          Parser.current]
      | some t =>
        simp [Parser.refuseUnreadable, htoken, InputError.withHeadline, Chart.report,
          Parser.current]

/-- Errors alike differ in the headline. -/
theorem InputError.eq_withHeadline {e e' : InputError}
    (h : e'.withHeadline "" = e.withHeadline "") : e' = e.withHeadline e'.report.headline := by
  cases e with
  | unreadable text offset report =>
    cases e' with
    | unreadable text' offset' report' =>
      obtain ⟨rfl, rfl, hreport⟩ := InputError.unreadable.inj h
      obtain ⟨-, hfound, hexpected, hitems⟩ := Report.mk.inj hreport
      simp [withHeadline, InputError.report, ← hfound, ← hexpected, ← hitems]
    | unexpected => cases h
  | unexpected token offset report =>
    cases e' with
    | unreadable => cases h
    | unexpected token' offset' report' =>
      obtain ⟨rfl, rfl, hreport⟩ := InputError.unexpected.inj h
      obtain ⟨-, hfound, hexpected, hitems⟩ := Report.mk.inj hreport
      simp [withHeadline, InputError.report, ← hfound, ← hexpected, ← hitems]

namespace Fed.Alike

variable {other : Fed lexer}

theorem error_eq_none (h : fed.Alike other) (hnone : other.error = none) : fed.error = none := by
  simpa [hnone] using h.error

theorem exists_withHeadline (h : fed.Alike other) {e : InputError} (he : other.error = some e) :
    ∃ headline, fed.error = some (e.withHeadline headline) := by
  have herror := h.error
  rw [he, Option.map_some, Option.map_eq_some_iff] at herror
  obtain ⟨e', he', hsame⟩ := herror
  exact ⟨e'.report.headline, he'.trans (congrArg some (InputError.eq_withHeadline hsame))⟩

theorem head_eq (h : fed.Alike other) : fed.parser.head = other.parser.head := by
  rw [h.parser]
  rfl

theorem table_eq (h : fed.Alike other) : fed.parser.table = other.parser.table := by
  rw [h.parser]
  rfl

end Fed.Alike

namespace Parser

/-- **Two parts that read as the whole** have an outcome like that of the whole: it comes with the
first part if that is refused, and with the second part otherwise. -/
theorem feed_joins (hjoins : lexer.Joins p.head.resume whole front back)
    (h : p.feed fuel whole = some fed) :
    (∃ split, p.feed fuel front = some split ∧ split.error ≠ none ∧ split.Alike fed) ∨
      ∃ mid split, p.feed fuel front = some mid ∧ mid.error = none ∧
        mid.parser.feed fuel back = some split ∧ split.Alike fed := by
  rw [feed_eq_map, hjoins.tokens, run_append] at h
  obtain ⟨halt, hrun, rfl⟩ := Option.map_eq_some_iff.mp h
  obtain ⟨⟨q, refused⟩, hfront, hback⟩ := Option.bind_eq_some_iff.mp hrun
  cases refused with
  | some token =>
    -- the first part is refused, and the whole with it
    obtain rfl := Option.some.inj hback
    left
    refine ⟨Halt.conclude front p.head.resume (lexer.read p.head.resume front)
      { parser := q, refused := some token }, ?_, by simp [Halt.conclude, refuse], ?_⟩
    · rw [feed_eq_map, hfront, Option.map_some]
    · exact Halt.conclude_alike { parser := q, refused := some token } _ _ _ _
        (fun hnone => absurd hnone (Option.some_ne_none _)) q.stand q.results
  | none =>
    right
    have hopen : q.blocked = false := (frame_run hfront).2.2
    have hmark := resume_run hfront
    rw [head_unblock] at hmark
    have hrest : run fuel (lexer.read q.head.resume back).tokens q = some halt := by
      rw [hmark]
      exact hback
    have hmid := feed_of_taken hfront hjoins.error_front
    -- the results of the first part come in only if the second one is refused
    have hsplit := feed_annotate_of_open fuel hopen back
      (lexer.read p.head.resume front).stand q.finish
    rw [hrest, Option.map_some] at hsplit
    refine ⟨_, _, hmid, rfl, hsplit, ?_⟩
    apply Halt.conclude_alike halt
    intro _
    rw [hjoins.error, hmark]

/-! ## Characters -/

/-- Characters read in two parts are read as the whole. -/
theorem joins_characters (start : Position) (front back : String) :
    characters.toLexer.Joins start (front ++ back) front back where
  error_front := by rw [Characters.read_eq]
  tokens := by
    simp only [Characters.read_eq, Characters.markBehind_tokensFrom, String.toList_append,
      Characters.tokensFrom_append]
  error := by simp only [Characters.read_eq]

/-- **Characters may be cut anywhere.** A text that is taken whole is taken in two parts, with the
same parser in the end, and a text that is refused is refused in one of its parts: the error is the
same but for its headline, and so are the columns. -/
theorem feed_append {p : Parser characters.toLexer} {fed : Fed characters.toLexer}
    {front back : String} (h : p.feed fuel (front ++ back) = some fed) :
    (fed.error = none → ∃ mid, p.feed fuel front = some mid ∧ mid.error = none ∧
        mid.parser.feed fuel back = some fed) ∧
      ∀ e, fed.error = some e → ∃ split headline,
        (p.feed fuel front = some split ∨ ∃ mid, p.feed fuel front = some mid ∧ mid.error = none ∧
          mid.parser.feed fuel back = some split) ∧
        split.error = some (e.withHeadline headline) ∧
          split.parser.current = fed.parser.current ∧ split.parser.table = fed.parser.table ∧
            split.parser.head.resume = fed.parser.head.resume := by
  have hcases := feed_joins (joins_characters p.head.resume front back) h
  constructor
  · intro hnone
    rcases hcases with ⟨split, -, hne, halike⟩ | ⟨mid, split, hfront, hmid, hback, halike⟩
    · exact absurd (halike.error_eq_none hnone) hne
    · have hsplit := halike.error_eq_none hnone
      -- the lexer stands at the end of the text in the end, and so does that of the whole
      have hstand : split.parser.stand = fed.parser.stand := by
        rw [(marks_feed hback hsplit).1, (marks_feed hfront hmid).2, (marks_feed h hnone).1]
        simp only [Characters.read_eq, Characters.markBehind_tokensFrom, String.toList_append,
          Position.behind_append]
      have hparser : split.parser = fed.parser := by
        rw [halike.parser, hstand, halike.results hnone]
        rfl
      refine ⟨mid, hfront, hmid, ?_⟩
      rw [hback, Fed.ext hparser (hsplit.trans hnone.symm)]
  · intro e he
    have hsame : ∀ split : Fed characters.toLexer, split.Alike fed → ∃ headline,
        split.error = some (e.withHeadline headline) ∧
          split.parser.current = fed.parser.current ∧ split.parser.table = fed.parser.table ∧
            split.parser.head.resume = fed.parser.head.resume := by
      intro split halike
      obtain ⟨headline, herror⟩ := halike.exists_withHeadline he
      exact ⟨headline, herror, congrArg Bookmark.index halike.head_eq, halike.table_eq,
        congrArg Bookmark.resume halike.head_eq⟩
    rcases hcases with ⟨split, hfront, -, halike⟩ | ⟨mid, split, hfront, hmid, hback, halike⟩
    · obtain ⟨headline, hsplit⟩ := hsame split halike
      exact ⟨split, headline, .inl hfront, hsplit⟩
    · obtain ⟨headline, hsplit⟩ := hsame split halike
      exact ⟨split, headline, .inr ⟨mid, hfront, hmid, hback⟩, hsplit⟩

/-- Two letters on lines of their own. -/
def twoLines : Grammar where
  start := "S"
  rules :=
    [{ name := "S", symbols := [.literal "a" false, .literal "\n" false, .literal "b" false] }]

theorem feed_append_twoLines :
    ∃ (p : Parser characters.toLexer) (fed mid : Fed characters.toLexer),
      start characters.toLexer twoLines false 9 = some p ∧ p.feed 9 ("a\n" ++ "b") = some fed ∧
        fed.error = none ∧ fed.parser.results ≠ [] ∧ p.feed 9 "a\n" = some mid ∧
          mid.error = none ∧ mid.parser.feed 9 "b" = some fed := by
  have hrun : ((start characters.toLexer twoLines false 9).bind fun p =>
      p.feed 9 ("a\n" ++ "b")).any (fun fed =>
        fed.error.isNone && !fed.parser.results.isEmpty) = true := by decide +kernel
  obtain ⟨fed, hfed, hresult⟩ := (Option.any_eq_true _ _).mp hrun
  obtain ⟨p, hp, hfeed⟩ := Option.bind_eq_some_iff.mp hfed
  have hresult : fed.error = none ∧ fed.parser.results ≠ [] := by simpa using hresult
  obtain ⟨mid, hsplit⟩ := (feed_append hfeed).1 hresult.1
  exact ⟨p, fed, mid, hp, hfeed, hresult.1, hresult.2, hsplit⟩

/-! ## Words -/

/-- Words that are cut next to a blank are read as the whole, if no words come behind a blank at the
end of the first part. -/
theorem joins_words {start : Position} {front back : String}
    (hread : (words.toLexer.read start front).error = none)
    (hmeet : Words.Meet front.toList back.toList)
    (hwhole : (words.toLexer.read start (front ++ back)).error = none)
    (hkept : front.toList.getLast?.any Text.isBlank = true →
      (words.toLexer.read (markBehind start (words.toLexer.read start front).tokens) back).tokens =
        []) :
    words.toLexer.Joins start (front ++ back) front back := by
  simp only [Words.read_eq] at hread hwhole hkept
  rw [String.toList_append, Words.reading_append hmeet start hread] at hwhole
  refine ⟨hread, ?_, ?_⟩
  · simp only [Words.read_eq]
    rw [String.toList_append, Words.reading_append hmeet start hread,
      Words.tokens_markBehind_eq hread hkept]
  · simp only [Words.read_eq]
    rw [String.toList_append, Words.reading_append hmeet start hread, hwhole]
    exact ((Words.length_tokens_eq back.toList _ _).2.mp hwhole).symm

/-- **Words may be cut next to a blank, but no words may follow a blank at the end of a chunk.** If a
text is taken whole, then so is its first part. The tokens of the second part come with the
positions that they have in the whole exactly if the first part does not end with a blank or there
are no tokens in the second. In that case the second part is taken too, and leads to the same parser
but for the mark at which the lexer stands. -/
theorem feed_append_words {p : Parser words.toLexer} {fed : Fed words.toLexer}
    {front back : String} (hread : (words.toLexer.read p.head.resume front).error = none)
    (hmeet : Words.Meet front.toList back.toList) (h : p.feed fuel (front ++ back) = some fed)
    (herror : fed.error = none) :
    ∃ mid, p.feed fuel front = some mid ∧ mid.error = none ∧
      (p.tokensOf (front ++ back) = p.tokensOf front ++ mid.parser.tokensOf back ↔
        (front.toList.getLast?.any Text.isBlank = true → mid.parser.tokensOf back = [])) ∧
      ((front.toList.getLast?.any Text.isBlank = true → mid.parser.tokensOf back = []) →
        ∃ split, mid.parser.feed fuel back = some split ∧ split.error = none ∧
          split.parser.results = fed.parser.results ∧
            split.parser = fed.parser.annotate split.parser.stand split.parser.results) := by
  -- without an error all tokens of the whole are taken, those of the first part first
  obtain ⟨q, hrun, hwhole, -⟩ := taken_of_feed h herror
  have htokens : (words.toLexer.read p.head.resume (front ++ back)).tokens =
      (words.toLexer.read p.head.resume front).tokens ++
        (words.toLexer.read (words.toLexer.read p.head.resume front).stand back).tokens := by
    simp only [Words.read_eq]
    rw [String.toList_append, Words.reading_append hmeet _ hread]
  rw [htokens] at hrun
  obtain ⟨m, hfront, -⟩ := exists_of_run_append hrun
  have hmid := feed_of_taken hfront hread
  have hmark := resume_run hfront
  rw [head_unblock] at hmark
  -- the second part is read from the mark behind the tokens of the first
  have hback : (m.annotate (words.toLexer.read p.head.resume front).stand m.finish).tokensOf back =
      (words.toLexer.read (markBehind p.head.resume
        (words.toLexer.read p.head.resume front).tokens) back).tokens.map Prod.fst := by
    rw [← hmark]
    rfl
  refine ⟨_, hmid, rfl, ?_, ?_⟩
  · rw [hback, tokensOf, tokensOf, htokens, List.map_append, List.append_cancel_left_eq,
      List.map_eq_nil_iff]
    exact Words.tokens_markBehind_iff hread
  · rw [hback, List.map_eq_nil_iff]
    intro hkept
    have hjoins := joins_words hread hmeet hwhole hkept
    rcases feed_joins hjoins h with ⟨split, hsplit, hne, -⟩ | ⟨mid, split, hmid', -, hsplit, halike⟩
    · -- the first part was taken
      rw [hmid] at hsplit
      exact absurd (congrArg Fed.error (Option.some.inj hsplit)).symm hne
    · obtain rfl := Option.some.inj (hmid.symm.trans hmid')
      exact ⟨split, hsplit, halike.error_eq_none herror, halike.results herror, by
        rw [halike.parser]
        rfl⟩

/-- Two words. -/
def twoWords : Grammar where
  start := "S"
  rules := [{ name := "S", symbols := [.kind "ident", .kind "ident"] }]

/-- A blank at the beginning of a chunk is counted. -/
theorem feed_append_twoWords :
    ∃ (p : Parser words.toLexer) (fed mid split : Fed words.toLexer),
      start words.toLexer twoWords false 9 = some p ∧ p.feed 9 ("x" ++ " y") = some fed ∧
        fed.parser.results ≠ [] ∧ p.feed 9 "x" = some mid ∧ mid.error = none ∧
          mid.parser.feed 9 " y" = some split ∧ split.error = none ∧
            split.parser.results = fed.parser.results := by
  have hrun : ((start words.toLexer twoWords false 9).bind fun p =>
      p.feed 9 ("x" ++ " y")).any (fun fed =>
        fed.error.isNone && !fed.parser.results.isEmpty) = true := by decide +kernel
  obtain ⟨fed, hfed, hresult⟩ := (Option.any_eq_true _ _).mp hrun
  obtain ⟨p, hp, hfeed⟩ := Option.bind_eq_some_iff.mp hfed
  have hresult : fed.error = none ∧ fed.parser.results ≠ [] := by simpa using hresult
  have horigin : p.head.resume = {} := by
    obtain ⟨chart, -, rfl⟩ := Option.map_eq_some_iff.mp hp
    rfl
  have hread : (words.toLexer.read p.head.resume "x").error = none := by
    rw [horigin]
    decide +kernel
  have hmeet : Words.Meet "x".toList " y".toList := .inr (by decide +kernel)
  obtain ⟨mid, hmid, hmiderror, -, hback⟩ := feed_append_words hread hmeet hfeed hresult.1
  obtain ⟨split, hsplit, herror, hresults, -⟩ := hback fun hlast =>
    absurd hlast (by decide +kernel)
  exact ⟨p, fed, mid, split, hp, hfeed, hresult.2, hmid, hmiderror, hsplit, herror, hresults⟩

/-- A blank at the end of a chunk is not counted: the word behind it comes one place too early. -/
theorem feed_blank_twoWords :
    ∃ (p : Parser words.toLexer) (fed mid split : Fed words.toLexer),
      start words.toLexer twoWords false 9 = some p ∧
        (words.toLexer.read p.head.resume "x ").error = none ∧ Words.Meet "x ".toList "y".toList ∧
          p.feed 9 ("x " ++ "y") = some fed ∧ fed.error = none ∧
            p.feed 9 "x " = some mid ∧ mid.error = none ∧
              mid.parser.feed 9 "y" = some split ∧ split.error = none ∧
                (fed.parser.results.flatMap Value.leaves).map (fun t => (t.offset, t.col)) =
                  [(0, 1), (2, 3)] ∧
                (split.parser.results.flatMap Value.leaves).map (fun t => (t.offset, t.col)) =
                  [(0, 1), (1, 2)] := by
  have hrun : (start words.toLexer twoWords false 9).any (fun p =>
      (p.feed 9 ("x " ++ "y")).any fun fed => (p.feed 9 "x ").any fun mid =>
        (mid.parser.feed 9 "y").any fun split =>
          (words.toLexer.read p.head.resume "x ").error.isNone && fed.error.isNone &&
            mid.error.isNone && split.error.isNone &&
              (fed.parser.results.flatMap Value.leaves).map (fun t => (t.offset, t.col)) ==
                [(0, 1), (2, 3)] &&
              (split.parser.results.flatMap Value.leaves).map (fun t => (t.offset, t.col)) ==
                [(0, 1), (1, 2)]) = true := by decide +kernel
  obtain ⟨p, hp, hrun⟩ := (Option.any_eq_true _ _).mp hrun
  obtain ⟨fed, hfed, hrun⟩ := (Option.any_eq_true _ _).mp hrun
  obtain ⟨mid, hmid, hrun⟩ := (Option.any_eq_true _ _).mp hrun
  obtain ⟨split, hsplit, hrun⟩ := (Option.any_eq_true _ _).mp hrun
  simp only [Bool.and_eq_true, Option.isNone_iff_eq_none, beq_iff_eq] at hrun
  obtain ⟨⟨⟨⟨⟨hread, herror⟩, hmiderror⟩, hspliterror⟩, hwhole⟩, hparts⟩ := hrun
  have hmeet : Words.Meet "x ".toList "y".toList := .inl (by decide +kernel)
  exact ⟨p, fed, mid, split, hp, hread, hmeet, hfed, herror, hmid, hmiderror, hsplit, hspliterror,
    hwhole, hparts⟩

end Parser

end Earley
