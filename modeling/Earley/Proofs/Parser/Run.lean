import Earley.Parser.Feed

/-!
# Runs over tokens

Feeding a chunk is a run over its tokens, which ends behind the last of them or in front of one that
is refused, and then a conclusion, which says what came of the chunk. The run depends on the tokens,
the marks behind them and the columns of the parser. The chunk, the place where it began and the
mark that the lexer stood at before come in with the conclusion.

## Main definitions

* `Halt`: where a run over tokens ends
* `Parser.run`: a run over tokens
* `Halt.conclude`: what came of the chunk that had these tokens

## Main results

* `Parser.feed_eq_map`: feeding is a run and a conclusion
* `Parser.feed_of_taken`, `Parser.taken_of_feed`: chunks that are taken whole
* `Parser.run_preserves`, `Parser.feed_preserves`: what a run keeps, and what feeding keeps
* `Parser.run_append`: a run over two rows of tokens is a run over one and then the other
* `Parser.run_mono`, `Parser.feed_mono`: a larger bound changes nothing
* `Parser.feed_annotate`: the mark at which the lexer stood is of no account
-/

namespace Earley

variable {Chunk Mark : Type} {lexer : Lexer Chunk Mark}

/-- **Where a run over tokens ends**: the parser at the last column that it reached, and the token
that it refused, with the mark behind it, if there was one. -/
structure Halt {Chunk Mark : Type} (lexer : Lexer Chunk Mark) where
  parser : Parser lexer
  refused : Option (Token × Mark) := none

/-- **What came of a chunk** that began at `start` and whose tokens led to a halt. -/
def Halt.conclude (chunk : Chunk) (start : Mark) (reading : Reading Mark) (halt : Halt lexer) :
    Fed lexer :=
  match halt.refused with
  | some (t, mark) => halt.parser.refuse chunk start t mark
  | none =>
    match reading.error with
    | some e => halt.parser.refuseUnreadable chunk start e reading.stand
    | none => { parser := Parser.refresh { halt.parser with stand := reading.stand } }

namespace Parser

/-- The parser as it was before its latest input was refused. -/
def unblock (p : Parser lexer) : Parser lexer :=
  { p with blocked := false }

/-- The parser with another mark for where its lexer stands, and other results. -/
def annotate (p : Parser lexer) (stand : Mark) (results : List Value) : Parser lexer :=
  { p with stand, results }

/-- Goes on to a further column, from which the lexer goes on at a mark. -/
def extend (p : Parser lexer) (chart : Chart) (mark : Mark) : Parser lexer :=
  { p with
    past := p.past.push (some p.head)
    head := { chart, resume := mark } }

/-- **A run over tokens**, each with the mark behind it, up to the first that is refused. -/
def run (fuel : Nat) : List (Token × Mark) → Parser lexer → Option (Halt lexer)
  | [], p => some { parser := p }
  | token :: rest, p =>
    match p.head.chart.shift p.grammar fuel token.1 with
    | none => none
    | some chart =>
      if chart.head.isEmpty then
        some { parser := p.forget, refused := some token }
      else
        run fuel rest (p.forget.extend chart token.2)

variable {fuel : Nat} {chunk : Chunk} {start : Mark} {reading : Reading Mark} {p : Parser lexer}
  {token : Token × Mark} {tokens rest : List (Token × Mark)} {chart : Chart} {halt : Halt lexer}

@[simp] theorem head_unblock (p : Parser lexer) : p.unblock.head = p.head := rfl

theorem unblock_eq_self (h : p.blocked = false) : p.unblock = p := by
  rw [unblock, ← h]

theorem unblock_annotate (p : Parser lexer) (stand : Mark) (results : List Value) :
    (p.annotate stand results).unblock = p.unblock.annotate stand results := rfl

@[simp] theorem head_annotate (p : Parser lexer) (stand : Mark) (results : List Value) :
    (p.annotate stand results).head = p.head := rfl

@[simp] theorem grammar_annotate (p : Parser lexer) (stand : Mark) (results : List Value) :
    (p.annotate stand results).grammar = p.grammar := rfl

theorem forget_annotate (p : Parser lexer) (stand : Mark) (results : List Value) :
    (p.annotate stand results).forget = p.forget.annotate stand results := by
  unfold forget annotate
  split <;> rfl

/-! ## One token -/

theorem run_cons_of_refused (h : p.head.chart.shift p.grammar fuel token.1 = some chart)
    (hempty : chart.head.isEmpty = true) :
    run fuel (token :: rest) p = some { parser := p.forget, refused := some token } := by
  simp [run, h, hempty]

theorem run_cons_of_taken (h : p.head.chart.shift p.grammar fuel token.1 = some chart)
    (hfull : chart.head.isEmpty = false) :
    run fuel (token :: rest) p = run fuel rest (p.forget.extend chart token.2) := by
  simp [run, h, hfull]

/-- **The two ways in which a run over a first token can go on.** -/
theorem run_cons_cases (h : run fuel (token :: rest) p = some halt) :
    ∃ chart, p.head.chart.shift p.grammar fuel token.1 = some chart ∧
      (chart.head.isEmpty = true ∧ halt = { parser := p.forget, refused := some token } ∨
        chart.head.isEmpty = false ∧
          run fuel rest (p.forget.extend chart token.2) = some halt) := by
  cases hshift : p.head.chart.shift p.grammar fuel token.1 with
  | none =>
    rw [run, hshift] at h
    exact nomatch h
  | some chart =>
    refine ⟨chart, rfl, ?_⟩
    by_cases hempty : chart.head.isEmpty = true
    · rw [run_cons_of_refused hshift hempty] at h
      exact .inl ⟨hempty, (Option.some.inj h).symm⟩
    · have hfull : chart.head.isEmpty = false := Bool.eq_false_iff.mpr hempty
      rw [run_cons_of_taken hshift hfull] at h
      exact .inr ⟨hfull, h⟩

/-! ## Feeding as a run -/

/-- Coming to an end, the lexer stands where the chunk left it, not where it stood before. -/
theorem consume_annotate (p : Parser lexer) (mark stand : Mark) (error : Option LexError) :
    consume fuel chunk start stand error tokens (p.annotate mark p.results) =
      consume fuel chunk start stand error tokens p := by
  cases tokens with
  | nil =>
    unfold consume
    split <;> rfl
  | cons token rest =>
    have hforget : (p.annotate mark p.results).forget = p.forget.annotate mark p.forget.results := by
      rw [forget_annotate, results_forget]
    simp only [consume, hforget, head_annotate, grammar_annotate, head_forget, grammar_forget]
    cases p.head.chart.shift p.grammar fuel token.1 with
    | none => rfl
    | some chart => rfl

theorem consume_eq_map :
    consume fuel chunk start reading.stand reading.error tokens p =
      (run fuel tokens p).map (Halt.conclude chunk start reading) := by
  induction tokens generalizing p with
  | nil =>
    unfold consume
    cases herror : reading.error with
    | none => simp [run, Halt.conclude, herror]
    | some e => simp [run, Halt.conclude, herror]
  | cons token rest ih =>
    simp only [consume, run, head_forget, grammar_forget]
    cases p.head.chart.shift p.grammar fuel token.1 with
    | none => rfl
    | some chart =>
      by_cases hempty : chart.head.isEmpty = true
      · simp [hempty, Halt.conclude]
      · simp only [hempty]
        -- the mark of the token is where the lexer stands for now
        exact (consume_annotate (p.forget.extend chart token.2) token.2 _ _).trans ih

/-- **Feeding a chunk is a run over its tokens and a conclusion.** -/
theorem feed_eq_map (fuel : Nat) (p : Parser lexer) (chunk : Chunk) :
    p.feed fuel chunk =
      (run fuel (lexer.read p.head.resume chunk).tokens p.unblock).map
        (Halt.conclude chunk p.head.resume (lexer.read p.head.resume chunk)) :=
  consume_eq_map

/-- **The mark at which the lexer stood** before a chunk is of no account. -/
theorem feed_annotate (fuel : Nat) (p : Parser lexer) (mark : Mark) (chunk : Chunk) :
    feed fuel (p.annotate mark p.results) chunk = feed fuel p chunk :=
  consume_annotate p.unblock mark _ _

/-! ## Whole runs -/

/-- **A run over two rows of tokens** is a run over the first, and over the second unless a token of
the first is refused. -/
theorem run_append (fuel : Nat) (front back : List (Token × Mark)) (p : Parser lexer) :
    run fuel (front ++ back) p =
      (run fuel front p).bind fun halt =>
        match halt.refused with
        | some _ => some halt
        | none => run fuel back halt.parser := by
  induction front generalizing p with
  | nil => rfl
  | cons token front ih =>
    simp only [List.cons_append, run]
    cases p.head.chart.shift p.grammar fuel token.1 with
    | none => rfl
    | some chart =>
      by_cases hempty : chart.head.isEmpty = true
      · -- nothing behind a refused token is looked at
        simp [hempty]
      · simp [hempty, ih]

/-- Behind tokens that are all taken, a run goes on with the others. -/
theorem run_append_of_taken {front : List (Token × Mark)} {q : Parser lexer}
    (h : run fuel front p = some { parser := q }) (back : List (Token × Mark)) :
    run fuel (front ++ back) p = run fuel back q := by
  rw [run_append, h, Option.bind_some]

/-- A run that goes through two rows of tokens goes through the first and then through the
second. -/
theorem exists_of_run_append {front back : List (Token × Mark)} {q : Parser lexer}
    (h : run fuel (front ++ back) p = some { parser := q }) :
    ∃ between, run fuel front p = some { parser := between } ∧
      run fuel back between = some { parser := q } := by
  rw [run_append] at h
  obtain ⟨⟨between, refused⟩, hfront, h⟩ := Option.bind_eq_some_iff.mp h
  cases refused with
  | none => exact ⟨between, hfront, h⟩
  | some token => exact absurd (Option.some.inj h) (by simp)

/-- **A run does not read** where the lexer stands, nor the results. -/
theorem run_annotate (fuel : Nat) (tokens : List (Token × Mark)) (p : Parser lexer) (stand : Mark)
    (results : List Value) :
    run fuel tokens (p.annotate stand results) =
      (run fuel tokens p).map fun halt =>
        { halt with parser := halt.parser.annotate stand results } := by
  induction tokens generalizing p with
  | nil => rfl
  | cons token rest ih =>
    simp only [run, forget_annotate, head_annotate, grammar_annotate]
    cases p.head.chart.shift p.grammar fuel token.1 with
    | none => rfl
    | some chart =>
      by_cases hempty : chart.head.isEmpty = true
      · simp [hempty]
      · simp only [hempty]
        exact ih (p.forget.extend chart token.2)

/-- **A larger bound changes nothing** in a run that ends. -/
theorem run_mono {more : Nat} (h : run fuel tokens p = some halt) (hle : fuel ≤ more) :
    run more tokens p = some halt := by
  induction tokens generalizing p with
  | nil => exact h
  | cons token rest ih =>
    obtain ⟨chart, hshift, ⟨hempty, rfl⟩ | ⟨hfull, hrest⟩⟩ := run_cons_cases h
    · exact run_cons_of_refused (Chart.close_mono hshift hle) hempty
    · rw [run_cons_of_taken (Chart.close_mono hshift hle) hfull]
      exact ih hrest

/-- **A larger bound changes nothing** in what comes of a chunk. -/
theorem feed_mono {more : Nat} {fed : Fed lexer} (h : p.feed fuel chunk = some fed)
    (hle : fuel ≤ more) : p.feed more chunk = some fed := by
  rw [feed_eq_map] at h ⊢
  obtain ⟨halt, hrun, rfl⟩ := Option.map_eq_some_iff.mp h
  rw [run_mono hrun hle, Option.map_some]

/-- **What a run keeps**: whatever is kept by giving up a column and by going on to a further one. -/
theorem run_preserves {P : Parser lexer → Prop} (hforget : ∀ q, P q → P q.forget)
    (hextend : ∀ (q : Parser lexer) (token : Token × Mark) (chart : Chart),
      q.head.chart.shift q.grammar fuel token.1 = some chart → P q → P (q.extend chart token.2))
    (hp : P p) (h : run fuel tokens p = some halt) : P halt.parser := by
  induction tokens generalizing p with
  | nil =>
    obtain rfl := Option.some.inj h
    exact hp
  | cons token rest ih =>
    obtain ⟨chart, hshift, ⟨-, rfl⟩ | ⟨-, hrest⟩⟩ := run_cons_cases h
    · exact hforget p hp
    · refine ih (hextend p.forget token chart ?_ (hforget p hp)) hrest
      rwa [head_forget, grammar_forget]

/-- What a run leaves as it was. -/
theorem frame_run (h : run fuel tokens p = some halt) :
    halt.parser.grammar = p.grammar ∧ halt.parser.keepHistory = p.keepHistory ∧
      halt.parser.blocked = p.blocked := by
  refine run_preserves (P := fun q => q.grammar = p.grammar ∧ q.keepHistory = p.keepHistory ∧
    q.blocked = p.blocked) ?_ ?_ ⟨rfl, rfl, rfl⟩ h
  · intro q hq
    rwa [grammar_forget, keepHistory_forget, blocked_forget]
  · intro q token chart _ hq
    exact hq

/-- A run does not come to results. -/
theorem results_run (h : run fuel tokens p = some halt) : halt.parser.results = p.results := by
  refine run_preserves (P := fun q => q.results = p.results) ?_ ?_ rfl h
  · intro q hq
    rwa [results_forget]
  · intro q token chart _ hq
    exact hq

/-- A run does not go back. -/
theorem current_le_run (h : run fuel tokens p = some halt) : p.current ≤ halt.parser.current := by
  refine run_preserves (P := fun q => p.current ≤ q.current) ?_ ?_ (Nat.le_refl _) h
  · intro q hq
    rwa [current_forget]
  · intro q token chart hshift hq
    have hindex : (q.extend chart token.2).current = q.current + 1 := Chart.index_shift hshift
    omega

/-- A run over tokens that are all taken goes on behind them, with a column for each. -/
theorem head_run {q : Parser lexer} (h : run fuel tokens p = some { parser := q }) :
    q.head.resume = markBehind p.head.resume tokens ∧ q.current = p.current + tokens.length := by
  induction tokens generalizing p with
  | nil =>
    obtain ⟨rfl, -⟩ := Halt.mk.inj (Option.some.inj h)
    exact ⟨rfl, rfl⟩
  | cons token rest ih =>
    obtain ⟨chart, hshift, ⟨-, hhalt⟩ | ⟨-, hrest⟩⟩ := run_cons_cases h
    · exact absurd (congrArg Halt.refused hhalt) (by simp)
    · obtain ⟨hresume, hcurrent⟩ := ih hrest
      have hchart : (p.forget.extend chart token.2).current = p.current + 1 :=
        Chart.index_shift hshift
      exact ⟨hresume, by rw [hcurrent, hchart, List.length_cons]; omega⟩

/-- The last column that a run over tokens comes to goes on behind these tokens. -/
theorem resume_run {q : Parser lexer} (h : run fuel tokens p = some { parser := q }) :
    q.head.resume = markBehind p.head.resume tokens :=
  (head_run h).1

/-- **A token that is refused** comes behind others that are all taken. -/
theorem exists_of_run_refused {q : Parser lexer}
    (h : run fuel tokens p = some { parser := q, refused := some token }) :
    ∃ front rest between, tokens = front ++ token :: rest ∧
      run fuel front p = some { parser := between } ∧ q = between.forget := by
  induction tokens generalizing p with
  | nil => exact absurd (congrArg Halt.refused (Option.some.inj h)) (by simp)
  | cons first rest ih =>
    obtain ⟨chart, hshift, ⟨-, hhalt⟩ | ⟨hfull, hrest⟩⟩ := run_cons_cases h
    · obtain ⟨hparser, htoken⟩ := Halt.mk.inj hhalt
      obtain rfl := Option.some.inj htoken
      exact ⟨[], rest, p, rfl, rfl, hparser⟩
    · obtain ⟨front, behind, between, htokens, hrun, hparser⟩ := ih hrest
      refine ⟨first :: front, behind, between, by rw [htokens, List.cons_append], ?_, hparser⟩
      rwa [run_cons_of_taken hshift hfull]

/-- In front of a token there is nothing more to give up. -/
theorem run_forget (fuel : Nat) (token : Token × Mark) (rest : List (Token × Mark))
    (p : Parser lexer) : run fuel (token :: rest) p.forget = run fuel (token :: rest) p := by
  simp only [run, forget_forget, head_forget, grammar_forget]

/-! ## Conclusions -/

/-- Concluding a chunk leaves the columns as they are. -/
theorem conclude_annotate (halt : Halt lexer) (chunk : Chunk) (start : Mark)
    (reading : Reading Mark) (stand : Mark) (results : List Value) :
    (halt.conclude chunk start reading).parser.unblock.annotate stand results =
      halt.parser.unblock.annotate stand results := by
  unfold Halt.conclude
  split
  · rfl
  · split <;> rfl

/-- A parser is blocked behind a chunk exactly if the chunk was refused. -/
theorem blocked_conclude (hopen : halt.parser.blocked = false) (chunk : Chunk) (start : Mark)
    (reading : Reading Mark) :
    (halt.conclude chunk start reading).parser.blocked =
      (halt.conclude chunk start reading).error.isSome := by
  unfold Halt.conclude
  split
  · rfl
  · split
    · rfl
    · exact hopen

/-- A chunk that is refused brings no results. -/
theorem results_conclude (chunk : Chunk) (start : Mark) (reading : Reading Mark)
    (herror : (halt.conclude chunk start reading).error ≠ none) :
    (halt.conclude chunk start reading).parser.results = halt.parser.results := by
  unfold Halt.conclude at herror ⊢
  split
  · rfl
  · split
    · rfl
    · next hrefused _ hnone => simp [hrefused, hnone] at herror

section

variable (halt : Halt lexer) (chunk : Chunk) (start : Mark) (reading : Reading Mark)

@[simp] theorem grammar_conclude :
    (halt.conclude chunk start reading).parser.grammar = halt.parser.grammar :=
  (congrArg Parser.grammar (conclude_annotate halt chunk start reading start []) :)

@[simp] theorem keepHistory_conclude :
    (halt.conclude chunk start reading).parser.keepHistory = halt.parser.keepHistory :=
  (congrArg Parser.keepHistory (conclude_annotate halt chunk start reading start []) :)

@[simp] theorem past_conclude :
    (halt.conclude chunk start reading).parser.past = halt.parser.past :=
  (congrArg Parser.past (conclude_annotate halt chunk start reading start []) :)

@[simp] theorem head_conclude :
    (halt.conclude chunk start reading).parser.head = halt.parser.head :=
  (congrArg Parser.head (conclude_annotate halt chunk start reading start []) :)

@[simp] theorem current_conclude :
    (halt.conclude chunk start reading).parser.current = halt.parser.current :=
  congrArg Bookmark.index (head_conclude halt chunk start reading)

end

/-- **What feeding keeps**: whatever is kept by a run and depends on the columns that were reached
only. -/
theorem feed_preserves {P : Parser lexer → Prop} {fed : Fed lexer}
    (hcongr : ∀ q q' : Parser lexer, q'.grammar = q.grammar → q'.keepHistory = q.keepHistory →
      q'.past = q.past → q'.head = q.head → P q → P q')
    (hforget : ∀ q, P q → P q.forget)
    (hextend : ∀ (q : Parser lexer) (token : Token × Mark) (chart : Chart),
      q.head.chart.shift q.grammar fuel token.1 = some chart → P q → P (q.extend chart token.2))
    (hp : P p) (h : p.feed fuel chunk = some fed) : P fed.parser := by
  rw [feed_eq_map] at h
  obtain ⟨halt, hrun, rfl⟩ := Option.map_eq_some_iff.mp h
  have hopen : P p.unblock := hcongr p p.unblock rfl rfl rfl rfl hp
  exact hcongr halt.parser _ (grammar_conclude ..) (keepHistory_conclude ..) (past_conclude ..)
    (head_conclude ..) (run_preserves hforget hextend hopen hrun)

/-- **A parser is blocked behind a chunk** exactly if the chunk was refused. -/
theorem blocked_feed {fed : Fed lexer} (h : p.feed fuel chunk = some fed) :
    fed.parser.blocked = fed.error.isSome := by
  rw [feed_eq_map] at h
  obtain ⟨halt, hrun, rfl⟩ := Option.map_eq_some_iff.mp h
  exact blocked_conclude (frame_run hrun).2.2 _ _ _

/-- Feeding does not go back. -/
theorem current_le_feed {fed : Fed lexer} (h : p.feed fuel chunk = some fed) :
    p.current ≤ fed.parser.current := by
  rw [feed_eq_map] at h
  obtain ⟨halt, hrun, rfl⟩ := Option.map_eq_some_iff.mp h
  rw [current_conclude]
  exact current_le_run (p := p.unblock) hrun

/-- **A chunk that is refused leaves the results** as they were. -/
theorem results_feed {fed : Fed lexer} (h : p.feed fuel chunk = some fed)
    (herror : fed.error ≠ none) : fed.parser.results = p.results := by
  rw [feed_eq_map] at h
  obtain ⟨halt, hrun, rfl⟩ := Option.map_eq_some_iff.mp h
  have hrun' : halt.parser.results = p.unblock.results := results_run hrun
  exact (results_conclude _ _ _ herror).trans hrun'

/-! ## Chunks that are taken -/

/-- **A chunk whose tokens are all taken.** -/
theorem feed_of_taken {q : Parser lexer}
    (hrun : run fuel (lexer.read p.head.resume chunk).tokens p.unblock = some { parser := q })
    (herror : (lexer.read p.head.resume chunk).error = none) :
    p.feed fuel chunk =
      some { parser := q.annotate (lexer.read p.head.resume chunk).stand q.finish } := by
  rw [feed_eq_map, hrun, Option.map_some, Halt.conclude, herror]
  rfl

/-- Feeding a parser that is not blocked, with other results. -/
theorem feed_annotate_of_open (fuel : Nat) (hopen : p.blocked = false) (chunk : Chunk) (stand : Mark)
    (results : List Value) :
    feed fuel (p.annotate stand results) chunk =
      (run fuel (lexer.read p.head.resume chunk).tokens p).map fun halt =>
        Halt.conclude chunk p.head.resume (lexer.read p.head.resume chunk)
          { halt with parser := halt.parser.annotate stand results } := by
  rw [feed_eq_map, unblock_annotate, unblock_eq_self hopen, run_annotate, Option.map_map]
  rfl

/-- A chunk that is fed without an error is read to its end, and its tokens are all taken. -/
theorem taken_of_feed {fed : Fed lexer} (h : p.feed fuel chunk = some fed)
    (herror : fed.error = none) :
    ∃ q, run fuel (lexer.read p.head.resume chunk).tokens p.unblock =
        some { parser := q } ∧ (lexer.read p.head.resume chunk).error = none ∧
          fed.parser = q.annotate (lexer.read p.head.resume chunk).stand q.finish := by
  rw [feed_eq_map] at h
  obtain ⟨⟨q, refused⟩, hrun, rfl⟩ := Option.map_eq_some_iff.mp h
  unfold Halt.conclude at herror
  cases refused with
  | some token => exact nomatch herror
  | none =>
    cases hreading : (lexer.read p.head.resume chunk).error with
    | none =>
      refine ⟨q, hrun, rfl, ?_⟩
      simp only [Halt.conclude, hreading]
      rfl
    | some e =>
      simp only [hreading] at herror
      exact nomatch herror

/-- The results of a chunk that is fed without an error are those of the last column. -/
theorem results_of_taken {fed : Fed lexer} (h : p.feed fuel chunk = some fed)
    (herror : fed.error = none) :
    fed.parser.results = fed.parser.head.chart.results fed.parser.grammar.start := by
  obtain ⟨q, hrun, -, hparser⟩ := taken_of_feed h herror
  have hopen : q.blocked = false := (frame_run hrun).2.2
  rw [hparser]
  exact if_neg (by simp [hopen])

/-- Where the lexer stands behind a chunk that is fed without an error, and where it goes on. -/
theorem marks_feed {fed : Fed lexer} (h : p.feed fuel chunk = some fed) (herror : fed.error = none) :
    fed.parser.stand = (lexer.read p.head.resume chunk).stand ∧
      fed.parser.head.resume =
        markBehind p.head.resume (lexer.read p.head.resume chunk).tokens := by
  obtain ⟨q, hrun, -, hparser⟩ := taken_of_feed h herror
  have hmark := resume_run hrun
  rw [hparser]
  exact ⟨rfl, hmark⟩

end Parser

end Earley
