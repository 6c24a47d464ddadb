import Earley.Proofs.Parser.Chunks

/-!
# Going on behind refused input

A text that is refused is refused at one of its characters. Those before it stay taken, and what is
fed next is taken, or refused in turn, as if it had been fed together with them in place of the
refused text. Nothing is left of the refused character but an earlier column, which a parser without
history gave up when the character came, and which it would give up with the next character anyway.

## Main definitions

* `Fed.shown`: what a chunk comes to, as far as later chunks and readers can tell

## Main results

* `Halt.shown_conclude`: what decides what a chunk comes to
* `Parser.shown_feed_joins`: behind tokens that are taken, the rest of a chunk is a chunk by itself
* `Parser.shown_feed_forget`: the columns that are given up are of no account
* `Parser.feed_recovers`: what is fed behind a refused text
-/

namespace Earley

variable {Chunk Mark : Type} {lexer : Lexer Chunk Mark} {fuel : Nat} {whole front back : Chunk}
  {p q : Parser lexer} {fed : Fed lexer}

/-- **What a chunk comes to**: the error but for its excerpt, the last column with the mark from
which the lexer goes on, and the results. -/
def Fed.shown (fed : Fed lexer) : Option InputError × Bookmark Mark × List Value :=
  (fed.error.map (·.withHeadline ""), fed.parser.head, fed.parser.results)

/-- **What decides what a chunk comes to**: where its tokens lead, the token that is refused, and
whether the lexer fails behind them. The chunk itself shows in the excerpt only. -/
theorem Halt.shown_conclude {halt halt' : Halt lexer} {chunk chunk' : Chunk} {start start' : Mark}
    {reading reading' : Reading Mark} (hrefused : halt'.refused = halt.refused)
    (hhead : halt'.parser.head = halt.parser.head)
    (hgrammar : halt'.parser.grammar = halt.parser.grammar)
    (hblocked : halt'.parser.blocked = halt.parser.blocked)
    (hresults : halt'.parser.results = halt.parser.results)
    (herror : reading'.error = reading.error) :
    (halt'.conclude chunk' start' reading').shown = (halt.conclude chunk start reading).shown := by
  unfold Halt.conclude
  rw [hrefused, herror]
  cases halt.refused with
  | some token =>
    simp [Fed.shown, Parser.refuse, Parser.block, Parser.current, InputError.withHeadline,
      Chart.report, hhead, hresults]
  | none =>
    cases reading.error with
    | none => simp [Fed.shown, Parser.refresh, Parser.finish, hhead, hgrammar, hblocked]
    | some e =>
      cases htoken : e.token with
      | none | some =>
        simp [Fed.shown, Parser.refuseUnreadable, htoken, Parser.block, Parser.current,
          InputError.withHeadline, Chart.report, hhead, hresults]

namespace Parser

/-- **Behind tokens that are taken, the rest of a chunk is a chunk by itself.** -/
theorem shown_feed_joins (hjoins : lexer.Joins p.head.resume whole front back)
    (hfront : run fuel (lexer.read p.head.resume front).tokens p.unblock = some { parser := q }) :
    (p.feed fuel whole).map Fed.shown = (q.feed fuel back).map Fed.shown := by
  have hopen : q.blocked = false := (frame_run hfront).2.2
  have hmark := resume_run hfront
  rw [head_unblock] at hmark
  rw [feed_eq_map, feed_eq_map, hjoins.tokens, run_append_of_taken hfront, unblock_eq_self hopen,
    hmark, Option.map_map, Option.map_map]
  -- the halt is the same, and is concluded as the end of the whole or of its second part
  refine congrArg (Option.map · _) (funext fun halt => ?_)
  exact Halt.shown_conclude rfl rfl rfl rfl rfl hjoins.error

/-- **The columns that are given up are of no account**, nor that input was refused. -/
theorem shown_feed_forget (hopen : p.blocked = false) (fuel : Nat) (chunk : Chunk) (stand : Mark) :
    ((p.forget.block stand).feed fuel chunk).map Fed.shown = (p.feed fuel chunk).map Fed.shown := by
  have hhead : (p.forget.block stand).head = p.head := head_forget p
  have hunblock : (p.forget.block stand).unblock = p.forget.annotate stand p.results :=
    Parser.ext rfl rfl rfl rfl (((blocked_forget p).trans hopen).symm) rfl (results_forget p)
  rw [feed_eq_map, feed_eq_map, hhead, hunblock, unblock_eq_self hopen, run_annotate]
  cases (lexer.read p.head.resume chunk).tokens with
  | nil =>
    -- without a token, the parser that gave up a column stays without it
    refine congrArg some (Halt.shown_conclude rfl ?_ ?_ ?_ rfl rfl)
    · exact head_forget p
    · exact grammar_forget p
    · exact blocked_forget p
  | cons token rest =>
    rw [run_forget]
    cases hrun : run fuel (token :: rest) p with
    | none => rfl
    | some halt =>
      have hresults : halt.parser.results = p.results := results_run hrun
      exact congrArg some (Halt.shown_conclude rfl rfl rfl rfl hresults.symm rfl)

/-- **What is fed behind a refused text.** The text is refused at one of its characters. There are
as many columns more as there are characters before it, and the results are those from before. What
is fed next comes to the same as if it had been fed with these characters in front. -/
theorem feed_recovers {p : Parser characters.toLexer} {fed : Fed characters.toLexer}
    {text : String} {e : InputError} (h : p.feed fuel text = some fed)
    (herror : fed.error = some e) :
    ∃ (front : List Char) (c : Char) (rest : List Char),
      text.toList = front ++ c :: rest ∧
        (∃ report, e = .unexpected
          (Characters.tokenAt (p.head.resume.behind Characters.ruler front) c)
          (p.current + front.length) report) ∧
        fed.parser.current = p.current + front.length ∧ fed.parser.results = p.results ∧
          ∀ more next, fuel ≤ more → (fed.parser.feed more next).map Fed.shown =
            (p.feed more (String.ofList front ++ next)).map Fed.shown := by
  have hresults := results_feed h (herror ▸ Option.some_ne_none e)
  rw [feed_eq_map] at h
  obtain ⟨⟨q, refused⟩, hrun, rfl⟩ := Option.map_eq_some_iff.mp h
  cases refused with
  | none =>
    -- characters are read without fail, so it is a token that was refused
    simp [Halt.conclude, Characters.read_eq] at herror
  | some token =>
    obtain rfl := Option.some.inj herror
    rw [Characters.read_eq] at hrun
    obtain ⟨tokens, behind, between, htokens, hfront, rfl⟩ := exists_of_run_refused hrun
    obtain ⟨front, c, rest, htext, rfl, htoken⟩ := Characters.exists_of_tokensFrom_eq htokens
    have hcurrent : between.forget.current = p.current + front.length := by
      rw [current_forget, (head_run hfront).2, Characters.length_tokensFrom]
      rfl
    refine ⟨front, c, rest, htext, ?_, hcurrent, hresults, fun more next hle => ?_⟩
    · exact ⟨_, congrArg₂ (InputError.unexpected · · _) htoken hcurrent⟩
    · -- the characters in front of the refused one are taken in any case
      have hread : run more (characters.toLexer.read p.head.resume (String.ofList front)).tokens
          p.unblock = some { parser := between } := by
        rw [Characters.read_eq, String.toList_ofList]
        exact run_mono hfront hle
      rw [shown_feed_joins (joins_characters p.head.resume (String.ofList front) next) hread]
      exact shown_feed_forget (frame_run hfront).2.2 more next token.2

/-- Behind a letter that is refused on the first line, the second line completes the input. -/
theorem feed_recovers_twoLines :
    ∃ (p : Parser characters.toLexer) (fed last whole : Fed characters.toLexer) (e : InputError),
      start characters.toLexer twoLines false 9 = some p ∧ p.feed 9 "ax" = some fed ∧
        fed.error = some e ∧ fed.parser.current = 1 ∧ fed.parser.feed 9 "\nb" = some last ∧
          p.feed 9 "a\nb" = some whole ∧ last.error = none ∧ last.parser.results ≠ [] ∧
            last.shown = whole.shown := by
  have hrun : (start characters.toLexer twoLines false 9).any (fun p => p.current == 0 &&
      (p.feed 9 "ax").any fun fed => fed.error.isSome && fed.parser.current == 1 &&
        (fed.parser.feed 9 "\nb").any fun last => (p.feed 9 "a\nb").any fun whole =>
          last.error.isNone && !last.parser.results.isEmpty) = true := by decide +kernel
  obtain ⟨p, hp, hrun⟩ := (Option.any_eq_true _ _).mp hrun
  obtain ⟨hfresh, hrun⟩ := (Bool.and_eq_true _ _).mp hrun
  obtain ⟨fed, hfed, hrun⟩ := (Option.any_eq_true _ _).mp hrun
  obtain ⟨hsound, hrun⟩ := (Bool.and_eq_true _ _).mp hrun
  obtain ⟨last, hlast, hrun⟩ := (Option.any_eq_true _ _).mp hrun
  obtain ⟨whole, hwhole, hresult⟩ := (Option.any_eq_true _ _).mp hrun
  have hfresh : p.current = 0 := by simpa using hfresh
  have hsound : fed.error.isSome = true ∧ fed.parser.current = 1 := by simpa using hsound
  have hresult : last.error = none ∧ last.parser.results ≠ [] := by simpa using hresult
  obtain ⟨e, he⟩ := Option.isSome_iff_exists.mp hsound.1
  obtain ⟨front, c, rest, htext, -, hcurrent, -, hrecovers⟩ := feed_recovers hfed he
  have hlength : front.length = 1 := by omega
  have hfront : front = "ax".toList.take 1 := by rw [htext, ← hlength, List.take_left]
  have hwhole' : String.ofList front ++ "\nb" = "a\nb" := by
    rw [hfront]
    decide +kernel
  have hsame := hrecovers 9 "\nb" (Nat.le_refl 9)
  rw [hwhole', hlast, hwhole] at hsame
  exact ⟨p, fed, last, whole, e, hp, hfed, he, hsound.2, hlast, hwhole, hresult.1, hresult.2,
    Option.some.inj hsame⟩

end Parser

end Earley
