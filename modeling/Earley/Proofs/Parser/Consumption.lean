import Earley.Proofs.Chart.Reading
import Earley.Proofs.Parser.Steps

/-!
# The tokens a parser has taken

A parser comes from a fresh one by feeding chunks. It has taken the tokens of the chunks that were
taken whole, and of a chunk that was refused those before the refusal. Its chart is the one behind
these tokens, whatever the chunks were.

## Main definitions

* `Chart.Fills`: the tokens behind an input that lead to columns with items
* `Fed.Takes`: the three ways in which feeding tokens can end
* `Parser.consuming`, `Parser.Consumed`: the parsers that have taken certain tokens

## Main results

* `Parser.takes_feed`: feeding a chunk ends in one of the three ways
* `Parser.Consumed.reads`: the chart of a parser is the one behind the tokens it has taken
-/

namespace Earley

variable {Chunk Mark : Type} {lexer : Lexer Chunk Mark} {g : Grammar} {input : List Token}

/-- **Tokens behind an input fill columns** if there is an item behind each of them. -/
def Chart.Fills (g : Grammar) (input tokens : List Token) : Prop :=
  ∀ front t, front ++ [t] <+: tokens →
    ∃ chart, Chart.Reads g (input ++ front ++ [t]) chart ∧ chart.head.isEmpty = false

theorem Chart.fills_nil (g : Grammar) (input : List Token) : Chart.Fills g input [] := by
  intro front t h
  exact absurd (List.prefix_nil.mp h) (by simp)

theorem Chart.Fills.cons {t : Token} {tokens : List Token} {chart : Chart}
    (hchart : Chart.Reads g (input ++ [t]) chart) (hfull : chart.head.isEmpty = false)
    (h : Chart.Fills g (input ++ [t]) tokens) : Chart.Fills g input (t :: tokens) := by
  intro front t' hprefix
  cases front with
  | nil =>
    obtain ⟨rfl, -⟩ := List.cons_prefix_cons.mp hprefix
    exact ⟨chart, by simpa using hchart, hfull⟩
  | cons first front =>
    obtain ⟨rfl, hrest⟩ := List.cons_prefix_cons.mp hprefix
    simpa using h front t' hrest

/-- **How feeding tokens can end**, the ones of `input` having been taken before: they are all taken
and the chunk ends; they are all taken and the lexer fails; or one of them is refused, since the
column behind it is empty. -/
inductive Fed.Takes (g : Grammar) (input tokens : List Token) (failure : Option LexError)
    (fed : Fed lexer) : Prop
  | whole (hreads : Chart.Reads g (input ++ tokens) fed.parser.head.chart)
      (hfills : Chart.Fills g input tokens)
      (hfailure : failure = none) (hopen : fed.parser.blocked = false) (herror : fed.error = none)
  | unreadable (hreads : Chart.Reads g (input ++ tokens) fed.parser.head.chart)
      (hfills : Chart.Fills g input tokens) (hfailure : failure ≠ none)
      (herror : ∃ text report, fed.error = some (.unreadable text (input ++ tokens).length report))
  | unexpected {taken rest : List Token} {t : Token} {chart : Chart}
      (htokens : tokens = taken ++ t :: rest)
      (hreads : Chart.Reads g (input ++ taken) fed.parser.head.chart)
      (hfills : Chart.Fills g input taken)
      (hchart : Chart.Reads g (input ++ taken ++ [t]) chart) (hempty : chart.head.isEmpty = true)
      (herror : ∃ report, fed.error = some (.unexpected t (input ++ taken).length report))

/-- One token more is taken first. -/
theorem Fed.Takes.cons {t : Token} {tokens : List Token} {chart : Chart}
    {failure : Option LexError} {fed : Fed lexer}
    (h : fed.Takes g (input ++ [t]) tokens failure)
    (hchart : Chart.Reads g (input ++ [t]) chart) (hfull : chart.head.isEmpty = false) :
    fed.Takes g input (t :: tokens) failure := by
  -- all that is said of the tokens before stays true, with the first token on the other side
  have hassoc : ∀ taken, input ++ [t] ++ taken = input ++ t :: taken := by simp
  cases h with
  | whole hreads hfills hfailure hopen herror =>
    rw [hassoc] at hreads
    exact .whole hreads (.cons hchart hfull hfills) hfailure hopen herror
  | unreadable hreads hfills hfailure herror =>
    rw [hassoc] at hreads herror
    exact .unreadable hreads (.cons hchart hfull hfills) hfailure herror
  | @unexpected taken rest t' chart' htokens hreads hfills hchart' hempty herror =>
    rw [hassoc] at hreads hchart' herror
    have htokens : t :: tokens = (t :: taken) ++ t' :: rest := by rw [htokens, List.cons_append]
    exact .unexpected htokens hreads (.cons hchart hfull hfills) hchart' hempty herror

namespace Parser

/-- The tokens of a chunk, as a parser would read it now. -/
def tokensOf (p : Parser lexer) (chunk : Chunk) : List Token :=
  (lexer.read p.head.resume chunk).tokens.map Prod.fst

/-- Sessions in which chunks are fed, with a log of the tokens taken: of each chunk as many as there
are columns more. -/
def consuming (g : Grammar) : Terms lexer (List Token) :=
  .feeding (fun p => ∃ keepHistory fuel, start lexer g keepHistory fuel = some p) []
    fun input p chunk fed next =>
      next = input ++ (p.tokensOf chunk).take (fed.parser.current - p.current)

/-- **The parsers that have taken certain tokens.** -/
def Consumed (g : Grammar) (input : List Token) (p : Parser lexer) : Prop :=
  Session (consuming g) input p

section Consume

variable {fuel : Nat} {chunk : Chunk} {start stand : Mark} {error : Option LexError}
  {fed : Fed lexer}

/-- Coming to the end of a chunk. -/
theorem takes_consume_nil {p : Parser lexer} (hg : p.grammar = g) (hopen : p.blocked = false)
    (hreads : Chart.Reads g input p.head.chart)
    (h : consume fuel chunk start stand error [] p = some fed) :
    fed.parser.grammar = g ∧ fed.Takes g input [] error := by
  rw [← List.append_nil input] at hreads
  cases error with
  | none =>
    obtain rfl := Option.some.inj h
    exact ⟨hg, .whole hreads (Chart.fills_nil g input) rfl hopen rfl⟩
  | some e =>
    obtain rfl := Option.some.inj h
    refine ⟨hg, .unreadable hreads (Chart.fills_nil g input) (Option.some_ne_none e) ?_⟩
    have hcurrent : p.current = (input ++ []).length := hreads.index_eq
    rw [← hcurrent, refuseUnreadable]
    cases e.token with
    | none => exact ⟨_, _, rfl⟩
    | some t => exact ⟨_, _, rfl⟩

/-- **Feeding tokens ends in one of the three ways.** -/
theorem takes_consume {tokens : List (Token × Mark)} {p : Parser lexer} (hg : p.grammar = g)
    (hopen : p.blocked = false) (hreads : Chart.Reads g input p.head.chart)
    (h : consume fuel chunk start stand error tokens p = some fed) :
    fed.parser.grammar = g ∧ fed.Takes g input (tokens.map Prod.fst) error := by
  induction tokens generalizing input p with
  | nil => exact takes_consume_nil hg hopen hreads h
  | cons token rest ih =>
    obtain ⟨t, mark⟩ := token
    simp only [consume, head_forget, grammar_forget, hg] at h
    cases hshift : p.head.chart.shift g fuel t with
    | none =>
      rw [hshift] at h
      exact nomatch h
    | some chart =>
      rw [hshift] at h
      have hchart : Chart.Reads g (input ++ [t]) chart := hreads.shift hshift
      by_cases hempty : chart.head.isEmpty = true
      · -- no item waits for the token
        simp only [hempty, if_true] at h
        obtain rfl := Option.some.inj h
        rw [← List.append_nil input] at hreads hchart
        have hcurrent : p.forget.current = (input ++ []).length := by
          rw [current, head_forget]
          exact hreads.index_eq
        have htokens : t :: rest.map Prod.fst = [] ++ t :: rest.map Prod.fst := rfl
        refine ⟨(grammar_forget p).trans hg,
          .unexpected htokens ?_ (Chart.fills_nil g input) hchart hempty ?_⟩
        · simpa [refuse, block] using hreads
        · rw [← hcurrent]
          exact ⟨_, rfl⟩
      · have hfull : chart.head.isEmpty = false := by simpa using hempty
        simp only [hfull] at h
        obtain ⟨hgrammar, htakes⟩ := ih (p := p.forget.accept chart mark)
          (by simp [accept, hg]) (by simp [accept, hopen]) hchart h
        exact ⟨hgrammar, htakes.cons hchart hfull⟩

/-- **Feeding a chunk ends in one of the three ways.** -/
theorem takes_feed {p : Parser lexer} (hg : p.grammar = g)
    (hreads : Chart.Reads g input p.head.chart) (h : p.feed fuel chunk = some fed) :
    fed.parser.grammar = g ∧
      fed.Takes g input (p.tokensOf chunk) (lexer.read p.head.resume chunk).error :=
  takes_consume (p := { p with blocked := false }) hg rfl hreads h

end Consume

/-- The number of columns says how many tokens were taken. -/
theorem reads_of_takes {tokens : List Token} {failure : Option LexError} {p : Parser lexer}
    {fed : Fed lexer} (hreads : Chart.Reads g input p.head.chart)
    (h : fed.Takes g input tokens failure) :
    Chart.Reads g (input ++ tokens.take (fed.parser.current - p.current))
      fed.parser.head.chart := by
  have hcurrent : p.current = input.length := hreads.index_eq
  cases h with
  | whole hreads' | unreadable hreads' =>
    have hcurrent' : fed.parser.current = (input ++ tokens).length := hreads'.index_eq
    rw [hcurrent, hcurrent', List.length_append, Nat.add_sub_cancel_left, List.take_length]
    exact hreads'
  | @unexpected taken rest t chart htokens hreads' =>
    have hcurrent' : fed.parser.current = (input ++ taken).length := hreads'.index_eq
    rw [hcurrent, hcurrent', List.length_append, Nat.add_sub_cancel_left, htokens,
      List.take_left]
    exact hreads'

theorem consumed_of_start {keepHistory : Bool} {fuel : Nat} {p : Parser lexer}
    (h : start lexer g keepHistory fuel = some p) : p.Consumed g [] :=
  .start ⟨keepHistory, fuel, h⟩

theorem Consumed.feed {fuel : Nat} {p : Parser lexer} {chunk : Chunk} {fed : Fed lexer}
    (hp : p.Consumed g input) (h : p.feed fuel chunk = some fed) :
    fed.parser.Consumed g (input ++ (p.tokensOf chunk).take (fed.parser.current - p.current)) :=
  .step hp (.feed h) rfl

/-- **What every chunk keeps** is kept by a parser that has taken tokens. -/
theorem Consumed.induction {P : List Token → Parser lexer → Prop} {p : Parser lexer}
    (h : p.Consumed g input)
    (hstart : ∀ keepHistory fuel p, start lexer g keepHistory fuel = some p → P [] p)
    (hfeed : ∀ input p fuel chunk fed, p.Consumed g input → P input p →
      p.feed fuel chunk = some fed →
        P (input ++ (p.tokensOf chunk).take (fed.parser.current - p.current)) fed.parser) :
    P input p := by
  refine Session.feeding_induction (I := P) h ?_ ?_
  · rintro p ⟨keepHistory, fuel, h⟩
    exact hstart keepHistory fuel p h
  · intro input next fuel p chunk fed hp ih h hnext
    obtain rfl := hnext
    exact hfeed input p fuel chunk fed hp ih h

/-- **The chart of a parser is the one behind the tokens it has taken.** -/
theorem Consumed.reads {p : Parser lexer} (h : p.Consumed g input) :
    p.grammar = g ∧ Chart.Reads g input p.head.chart := by
  refine h.induction (P := fun input p => p.grammar = g ∧ Chart.Reads g input p.head.chart) ?_ ?_
  · intro keepHistory fuel p h
    obtain ⟨chart, hchart, rfl⟩ := Option.map_eq_some_iff.mp h
    exact ⟨rfl, .initial hchart⟩
  · rintro input p fuel chunk fed - ⟨hg, hreads⟩ h
    obtain ⟨hgrammar, htakes⟩ := takes_feed hg hreads h
    exact ⟨hgrammar, reads_of_takes hreads htakes⟩

/-- A chunk that is fed without an error is taken whole. -/
theorem Consumed.of_error_eq_none {fuel : Nat} {p : Parser lexer} {chunk : Chunk} {fed : Fed lexer}
    (hp : p.Consumed g input) (h : p.feed fuel chunk = some fed) (herror : fed.error = none) :
    fed.parser.Consumed g (input ++ p.tokensOf chunk) ∧ fed.parser.blocked = false := by
  obtain ⟨hg, hreads⟩ := hp.reads
  have hfed := Consumed.feed hp h
  have hcurrent : p.current = input.length := hreads.index_eq
  cases (takes_feed hg hreads h).2 with
  | whole hreads' _ _ hopen =>
    have hcurrent' : fed.parser.current = (input ++ p.tokensOf chunk).length := hreads'.index_eq
    rw [hcurrent, hcurrent', List.length_append, Nat.add_sub_cancel_left,
      List.take_length] at hfed
    exact ⟨hfed, hopen⟩
  | unreadable _ _ _ herror' =>
    obtain ⟨text, report, herror'⟩ := herror'
    exact absurd (herror.symm.trans herror') (by simp)
  | unexpected _ _ _ _ _ herror' =>
    obtain ⟨report, herror'⟩ := herror'
    exact absurd (herror.symm.trans herror') (by simp)

end Parser

end Earley
