import Earley.Proofs.Parser.Chunks
import Earley.Proofs.Parser.Table

/-!
# Rewinding

The columns of a parser that keeps its history are those of one run, over the tokens that it has
taken and not given up again. Feeding goes on with this run, whether the chunk is taken whole or
not, and rewinding goes back to where the run was behind some of the tokens. So a parser that is
rewound is where a fresh one comes to that is fed the beginning of the input, and from there on both
answer alike.

## Main definitions

* `Parser.Replays`: the columns of a parser are those of a run over certain tokens
* `Parser.typing`, `Parser.Typed`: a parser over characters, and the text that it has taken
* `Parser.feeds`: what comes of several chunks

## Main results

* `Parser.Replays.feed`, `Parser.Replays.rewind`: what feeding and rewinding do to the run
* `Parser.rewind_typed`: rewinding equals replaying the beginning of the text
-/

namespace Earley

variable {Chunk Mark : Type} {lexer : Lexer Chunk Mark} {g : Grammar} {fuel n : Nat}
  {tokens : List (Token × Mark)} {chunk : Chunk} {p q : Parser lexer} {halt : Halt lexer}
  {fed : Fed lexer}

namespace Parser

/-! ## Runs that keep their history -/

/-- A run takes some of the tokens, one column for each, and no others. -/
theorem run_taken (hkeep : p.keepHistory = true) (h : run fuel tokens p = some halt) :
    ∃ n, halt.parser.current = p.current + n ∧
      run fuel (tokens.take n) p = some { parser := halt.parser } := by
  obtain ⟨q, refused⟩ := halt
  cases refused with
  | none =>
    refine ⟨tokens.length, (head_run h).2, ?_⟩
    rw [List.take_length]
    exact h
  | some token =>
    obtain ⟨front, rest, between, rfl, hfront, rfl⟩ := exists_of_run_refused h
    rw [forget_eq_self ((frame_run hfront).2.1.trans hkeep)]
    refine ⟨front.length, (head_run hfront).2, ?_⟩
    rw [List.take_left]
    exact hfront

/-- **A run only adds columns**, one for each token. -/
theorem history_run (hkeep : p.keepHistory = true) (h : run fuel tokens p = some { parser := q }) :
    ∃ more, q.past.push (some q.head) = p.past.push (some p.head) ++ more ∧
      more.size = tokens.length := by
  induction tokens generalizing p with
  | nil =>
    obtain ⟨rfl, -⟩ := Halt.mk.inj (Option.some.inj h)
    exact ⟨#[], by simp, rfl⟩
  | cons token rest ih =>
    obtain ⟨chart, -, ⟨-, hhalt⟩ | ⟨-, hrest⟩⟩ := run_cons_cases h
    · exact absurd (congrArg Halt.refused hhalt) (by simp)
    · rw [forget_eq_self hkeep] at hrest
      obtain ⟨more, hpast, hsize⟩ := ih (by simpa [extend] using hkeep) hrest
      refine ⟨#[some (p.extend chart token.2).head] ++ more, ?_, ?_⟩
      · rw [hpast, ← Array.append_assoc]
        rfl
      · rw [Array.size_append, hsize, List.length_cons]
        exact Nat.add_comm 1 _

/-- All columns of a parser but the one behind refused input. -/
theorem exists_table_eq (p : Parser lexer) :
    ∃ later, p.table = p.past.push (some p.head) ++ later := by
  unfold table
  split
  · exact ⟨#[some p.placeholder], rfl⟩
  · exact ⟨#[], by simp⟩

/-- The columns up to the last one stand in front of what comes behind refused input. -/
theorem Placed.bookmark?_of_le (h : p.Placed) {j : Nat} (hj : j ≤ p.current) :
    p.bookmark? j = (p.past.push (some p.head))[j]?.join := by
  obtain ⟨later, htable⟩ := exists_table_eq p
  have hin : j < (p.past.push (some p.head)).size := by
    rw [Array.size_push, h.size_past]
    omega
  rw [bookmark?, htable, Array.getElem?_append_left hin]

/-- **Feeding leaves the columns** that there were, if the history is kept. -/
theorem Placed.bookmark?_feed (h : p.Placed) (hkeep : p.keepHistory = true)
    (hfeed : p.feed fuel chunk = some fed) {j : Nat} (hj : j ≤ p.current) :
    fed.parser.bookmark? j = p.bookmark? j := by
  have hplaced := h.feed hfeed
  have hle := Nat.le_trans hj (current_le_feed hfeed)
  rw [hplaced.bookmark?_of_le hle, h.bookmark?_of_le hj]
  rw [feed_eq_map] at hfeed
  obtain ⟨halt, hrun, rfl⟩ := Option.map_eq_some_iff.mp hfeed
  obtain ⟨n, -, htaken⟩ := run_taken (p := p.unblock) hkeep hrun
  obtain ⟨more, hpast, -⟩ := history_run (p := p.unblock) hkeep htaken
  have hin : j < (p.past.push (some p.head)).size := by
    rw [Array.size_push, h.size_past]
    omega
  rw [past_conclude, head_conclude, hpast]
  exact congrArg Option.join (Array.getElem?_append_left hin)

/-- **Rewinding to a column that is kept** leaves the columns before it. -/
theorem rewind_of_table {b : Bookmark Mark} {earlier later : Array (Option (Bookmark Mark))}
    (hkeep : p.keepHistory = true) (htable : p.table = earlier.push (some b) ++ later)
    (hindex : b.index = earlier.size) :
    p.rewind earlier.size =
      .ok (refresh { p with past := earlier, head := b, blocked := false }) := by
  have hget : p.bookmark? earlier.size = some b := by
    rw [bookmark?, htable, Array.getElem?_append_left (by simp), Array.getElem?_push_size]
    rfl
  have hkept : p.table.take b.index = earlier := by
    rw [htable, hindex, Array.take_eq_extract]
    apply Array.ext'
    simp
  refine rewind_eq_ok_iff.mpr ⟨hkeep, b, hget, ?_⟩
  simp only [restore, hkept]
  simp [hindex]

/-! ## The run of a session -/

/-- **The columns of a parser are those of a run** over certain tokens, from a fresh parser that
keeps its history. Whether the parser is blocked, where its lexer stands and what results it shows
does not matter for that. -/
def Replays (g : Grammar) (tokens : List (Token × Mark)) (p : Parser lexer) : Prop :=
  ∃ fuel fresh stand results, start lexer g true fuel = some fresh ∧
    run fuel tokens fresh = some { parser := p.unblock.annotate stand results }

/-- A larger bound starts the same parser. -/
theorem start_mono {keepHistory : Bool} {more : Nat} (h : start lexer g keepHistory fuel = some p)
    (hle : fuel ≤ more) : start lexer g keepHistory more = some p := by
  obtain ⟨chart, hchart, rfl⟩ := Option.map_eq_some_iff.mp h
  rw [start, Chart.initial, Chart.close_mono hchart hle, Option.map_some]

/-- Where a run from a fresh parser comes to. -/
theorem frame_of_start {bound : Nat} {fresh : Parser lexer}
    (hstart : start lexer g true bound = some fresh)
    (hrun : run fuel tokens fresh = some { parser := q }) :
    q.grammar = g ∧ q.keepHistory = true ∧ q.blocked = false ∧ q.past.size = tokens.length ∧
      q.current = tokens.length ∧ q.head.resume = markBehind lexer.origin tokens := by
  obtain ⟨hgrammar, hkeep, hpast, hopen, hcurrent, hresume⟩ := fresh_of_start hstart
  obtain ⟨hgrammar', hkeep', hopen'⟩ := frame_run hrun
  obtain ⟨hmark, hindex⟩ := head_run hrun
  obtain ⟨more, hmore, hsize⟩ := history_run hkeep hrun
  have hcolumns := congrArg Array.size hmore
  rw [Array.size_append, Array.size_push, Array.size_push, hpast, hsize] at hcolumns
  refine ⟨hgrammar'.trans hgrammar, hkeep'.trans hkeep, hopen'.trans hopen, ?_, ?_, ?_⟩
  · simpa [Nat.add_comm 1] using hcolumns
  · rw [hindex, hcurrent, Nat.zero_add]
  · rw [hmark, hresume]

theorem replays_start (h : start lexer g true fuel = some p) : p.Replays g [] := by
  refine ⟨fuel, p, p.stand, p.results, h, ?_⟩
  rw [unblock_eq_self (fresh_of_start h).2.2.2.1]
  rfl

/-- What the run says about the parser. -/
theorem Replays.frame (h : p.Replays g tokens) :
    p.grammar = g ∧ p.keepHistory = true ∧ p.current = tokens.length ∧
      p.head.resume = markBehind lexer.origin tokens := by
  obtain ⟨fuel, fresh, stand, results, hstart, hrun⟩ := h
  obtain ⟨hgrammar, hkeep, -, -, hcurrent, hresume⟩ := frame_of_start hstart hrun
  exact ⟨hgrammar, hkeep, hcurrent, hresume⟩

/-- **Feeding goes on with the run**, over as many tokens as there are columns more. -/
theorem Replays.feed (h : p.Replays g tokens) (hfeed : p.feed fuel chunk = some fed) :
    fed.parser.Replays g (tokens ++
      (lexer.read p.head.resume chunk).tokens.take (fed.parser.current - p.current)) := by
  have hkeep : p.unblock.keepHistory = true := h.frame.2.1
  obtain ⟨bound, fresh, stand, results, hstart, hrun⟩ := h
  rw [feed_eq_map] at hfeed
  obtain ⟨halt, hhalt, rfl⟩ := Option.map_eq_some_iff.mp hfeed
  obtain ⟨n, hcurrent, htaken⟩ := run_taken hkeep hhalt
  have hsame := conclude_annotate halt chunk p.head.resume (lexer.read p.head.resume chunk) stand
    results
  have hcolumns : (halt.conclude chunk p.head.resume
      (lexer.read p.head.resume chunk)).parser.current - p.current = n := by
    have hlast := (congrArg current hsame).trans hcurrent
    exact Nat.sub_eq_of_eq_add' hlast
  have hopen : halt.parser.blocked = false := (frame_run hhalt).2.2
  rw [hcolumns]
  refine ⟨max bound fuel, fresh, stand, results, start_mono hstart (Nat.le_max_left ..), ?_⟩
  rw [run_append_of_taken (run_mono hrun (Nat.le_max_left ..)), run_annotate,
    run_mono htaken (Nat.le_max_right ..), hsame, unblock_eq_self hopen]
  rfl

/-- **Rewinding goes back to where the run was** behind some of the tokens. -/
theorem Replays.rewind (h : p.Replays g tokens) {i : Nat} (hi : i ≤ p.current) :
    ∃ q, p.rewind i = .ok q ∧ q.Replays g (tokens.take i) ∧ q.blocked = false ∧
      q.results = q.finish := by
  obtain ⟨hgrammar, hkeep, hcurrent, -⟩ := h.frame
  obtain ⟨bound, fresh, stand, results, hstart, hrun⟩ := h
  have hlength : (tokens.take i).length = i := by
    rw [List.length_take]
    omega
  -- where the run was: column `i`, with the columns before it
  rw [← List.take_append_drop i tokens] at hrun
  obtain ⟨m, hfront, hback⟩ := exists_of_run_append hrun
  obtain ⟨hmgrammar, hmkeep, hmopen, hmpast, hmcurrent, -⟩ := frame_of_start hstart hfront
  -- its later columns are those of the parser
  obtain ⟨more, hmore, -⟩ := history_run hmkeep hback
  obtain ⟨later, htable⟩ := exists_table_eq p
  have hkept : p.table = m.past.push (some m.head) ++ (more ++ later) := by
    rw [htable, ← Array.append_assoc, ← hmore]
    rfl
  have hrewind := rewind_of_table hkeep hkept (hmcurrent.trans hmpast.symm)
  rw [hmpast, hlength] at hrewind
  refine ⟨_, hrewind, ⟨bound, fresh, m.stand, m.results, hstart, ?_⟩, rfl, rfl⟩
  rw [hfront]
  congr 2
  ext1
  · exact hmgrammar.trans hgrammar.symm
  · exact hmkeep.trans hkeep.symm
  · rfl
  · rfl
  · exact hmopen
  · rfl
  · rfl

/-! ## Several chunks -/

/-- **What comes of several chunks**, one after the other. -/
def feeds (fuel : Nat) : List Chunk → Parser lexer → Option (List (Fed lexer))
  | [], _ => some []
  | chunk :: rest, p =>
    (p.feed fuel chunk).bind fun fed => (feeds fuel rest fed.parser).map (fed :: ·)

/-- The mark at which the lexer stood before is of no account. -/
theorem feeds_annotate (fuel : Nat) (chunks : List Chunk) (p : Parser lexer) (stand : Mark) :
    feeds fuel chunks (p.annotate stand p.results) = feeds fuel chunks p := by
  cases chunks with
  | nil => rfl
  | cons chunk rest => rw [feeds, feeds, feed_annotate]

/-! ## Characters -/

/-- Sessions of parsers over characters that keep their history and are fed and rewound only, with a
log of the text: feeding takes as many characters as there are columns more, and rewinding gives up
the characters behind a column. -/
def typing (g : Grammar) : Terms characters.toLexer (List Char) where
  begins p := ∃ fuel, start characters.toLexer g true fuel = some p
  first := []
  follows text p operation fed next :=
    match operation with
    | .feed _ chunk => next = text ++ chunk.toList.take (fed.parser.current - p.current)
    | .rewind i => i ≤ p.current ∧ next = text.take i
    | _ => False

/-- **A parser over characters and the text that it has taken.** -/
def Typed (g : Grammar) (text : List Char) (p : Parser characters.toLexer) : Prop :=
  Session (typing g) text p

/-- **The columns of a parser are those of a run over the text that it has taken.** -/
theorem Typed.replays {text : List Char} {p : Parser characters.toLexer} (h : p.Typed g text) :
    p.Replays g (Characters.tokensFrom {} text) := by
  induction h with
  | start h =>
    obtain ⟨fuel, h⟩ := h
    exact replays_start h
  | @step text _ p _ fed _ hstep hnext ih =>
    cases hstep with
    | feed h =>
      obtain rfl := hnext
      have hresume : p.head.resume = Position.behind Characters.ruler {} text :=
        ih.frame.2.2.2.trans (Characters.markBehind_tokensFrom {} text)
      have hfed := ih.feed h
      rw [Characters.read_eq, hresume, Characters.take_tokensFrom] at hfed
      rwa [Characters.tokensFrom_append]
    | rewind h =>
      obtain ⟨hi, rfl⟩ := hnext
      obtain ⟨q, hq, hreplays, -⟩ := ih.rewind hi
      obtain rfl := Except.ok.inj (h.symm.trans hq)
      rwa [Characters.take_tokensFrom] at hreplays
    | save | restore => exact False.elim hnext
  | borrow _ _ h => exact False.elim h

/-- **Rewinding equals replaying the beginning of the text.** A parser that is rewound has the
columns, the results and the mark to go on from of a fresh one that is fed the beginning of the text
in one chunk, and the same comes of all later chunks. -/
theorem rewind_typed {text : List Char} {p : Parser characters.toLexer} (hp : p.Typed g text)
    {i : Nat} (hi : i ≤ p.current) :
    ∃ q bound, p.rewind i = .ok q ∧ ∀ fuel, bound ≤ fuel → ∃ fresh fed,
      start characters.toLexer g true fuel = some fresh ∧
        fresh.feed fuel (String.ofList (text.take i)) = some fed ∧ fed.error = none ∧
          q.current = fed.parser.current ∧ q.table = fed.parser.table ∧
            q.results = fed.parser.results ∧ q.head.resume = fed.parser.head.resume ∧
              ∀ more chunks, feeds more chunks q = feeds more chunks fed.parser := by
  obtain ⟨q, hrewind, hreplays, hopen, hresults⟩ := hp.replays.rewind hi
  obtain ⟨bound, fresh, stand, results, hstart, hrun⟩ := hreplays
  rw [Characters.take_tokensFrom, unblock_eq_self hopen] at hrun
  refine ⟨q, bound, hrewind, fun fuel hfuel => ?_⟩
  obtain ⟨-, -, -, hfreshopen, -, horigin⟩ := fresh_of_start hstart
  have hread : characters.toLexer.read fresh.head.resume (String.ofList (text.take i)) =
      { tokens := Characters.tokensFrom {} (text.take i)
        stand := Position.behind Characters.ruler {} (text.take i) } := by
    rw [Characters.read_eq, horigin, String.toList_ofList]
    rfl
  have htaken : run fuel
      (characters.toLexer.read fresh.head.resume (String.ofList (text.take i))).tokens
        fresh.unblock = some { parser := q.annotate stand results } := by
    rw [hread, unblock_eq_self hfreshopen]
    exact run_mono hrun hfuel
  refine ⟨fresh, _, start_mono hstart hfuel, feed_of_taken htaken (by rw [hread]), rfl, rfl, rfl,
    hresults, rfl, ?_⟩
  -- the parsers differ in where their lexers stand only
  intro more chunks
  have hsame : (q.annotate stand results).annotate
      (characters.toLexer.read fresh.head.resume (String.ofList (text.take i))).stand
        (q.annotate stand results).finish =
      q.annotate (characters.toLexer.read fresh.head.resume (String.ofList (text.take i))).stand
        q.results := by
    rw [hresults]
    rfl
  rw [hsame, feeds_annotate]

/-- A refused character, and the column behind the first letter again. -/
theorem rewind_typed_twoLines :
    ∃ (p q fresh : Parser characters.toLexer) (fed : Fed characters.toLexer) (fuel : Nat),
      p.Typed twoLines ['a', '\n'] ∧ p.blocked = true ∧ p.rewind 1 = .ok q ∧
        start characters.toLexer twoLines true fuel = some fresh ∧
          fresh.feed fuel (String.ofList ['a']) = some fed ∧ fed.error = none ∧
            q.table = fed.parser.table := by
  have hrun : (start characters.toLexer twoLines true 9).any (fun p =>
      (p.feed 9 "a\nc").any fun fed =>
        fed.parser.blocked && fed.parser.current == 2 && p.current == 0) = true := by
    decide +kernel
  obtain ⟨p, hp, hrun⟩ := (Option.any_eq_true _ _).mp hrun
  obtain ⟨fed, hfeed, hresult⟩ := (Option.any_eq_true _ _).mp hrun
  simp only [Bool.and_eq_true, beq_iff_eq] at hresult
  obtain ⟨⟨hblocked, hcurrent⟩, hstart⟩ := hresult
  have htext : ['a', '\n'] =
      [] ++ "a\nc".toList.take (fed.parser.current - p.current) := by
    rw [hcurrent, hstart]
    rfl
  have htyped : fed.parser.Typed twoLines ['a', '\n'] :=
    .step (.start ⟨9, hp⟩) (.feed hfeed) htext
  obtain ⟨q, bound, hrewind, hreplay⟩ := rewind_typed htyped (i := 1) (by rw [hcurrent]; decide)
  obtain ⟨fresh, replayed, hfresh, hreplayed, herror, -, htable, -⟩ :=
    hreplay bound (Nat.le_refl bound)
  exact ⟨fed.parser, q, fresh, replayed, bound, htyped, hblocked, hrewind, hfresh, hreplayed,
    herror, htable⟩

end Parser

end Earley
