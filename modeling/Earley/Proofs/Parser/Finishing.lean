import Earley.Lexer.Characters
import Earley.Proofs.Parser.Session

/-!
# The results of a session

A session feeds, rewinds, saves and restores, and to every column that it keeps some tokens have led:
those that were taken behind an earlier column, or those that led to a bookmark when it was saved.
Behind refused input stands the empty column, to which no tokens have led. A bookmark of a later
column may be restored behind it, and a rewind comes to it then.

The results of a parser are the values of the derivations of the tokens that led to its last column,
unless the latest chunk was refused: then there are none, whatever was taken before.

## Main definitions

* `Chart.Behind`: a chart to which certain tokens have led, or none
* `Parser.inputsBehind`, `Parser.inputsBefore`: the tokens that lead to each column of a parser that
  goes on, or back
* `Parser.accounting`, `Parser.Led`: the parsers of a session, with the tokens that led to their
  columns
* `Parser.Accounts`: the columns are those to which these tokens lead

## Main results

* `Parser.Led.accounts`: in a session the tokens lead to the columns
* `Parser.finish_led`: the results of a parser
-/

namespace Earley

variable {Chunk Mark : Type} {lexer : Lexer Chunk Mark} {g : Grammar} {fuel i j : Nat}
  {input? : Option (List Token)} {inputs : Nat → Option (List Token)} {tokens : List (Token × Mark)}
  {chunk : Chunk} {chart next : Chart} {p q : Parser lexer} {halt : Halt lexer} {fed : Fed lexer}
  {refusal : Option InputError}

namespace Chart

/-- **A chart to which certain tokens have led**, or one that ends with an empty column, to which
none have. -/
def Behind (g : Grammar) (input? : Option (List Token)) (chart : Chart) : Prop :=
  match input? with
  | some input => Reads g input chart
  | none => chart.head = {}

/-- A further token leads to the next chart, and to none behind an empty column. -/
theorem Behind.shift {t : Token} (h : Behind g input? chart)
    (hshift : chart.shift g fuel t = some next) : Behind g (input?.map (· ++ [t])) next := by
  cases input? with
  | some input => exact Reads.shift h hshift
  | none =>
    rw [shift_of_head_eq h] at hshift
    obtain rfl := Option.some.inj hshift
    rfl

/-- An empty column has no results. -/
theorem results_of_head_eq (h : chart.head = {}) (name : String) : chart.results name = [] := by
  simp [results, h]

end Chart

namespace Parser

/-! ## The tokens that lead to the columns -/

/-- **The tokens that lead to each column**, once a parser at column `i` has taken more tokens and is
at column `k`. -/
def inputsBehind (inputs : Nat → Option (List Token)) (i : Nat) (tokens : List Token) (k j : Nat) :
    Option (List Token) :=
  if j ≤ i then inputs j else if j ≤ k then (inputs i).map (· ++ tokens.take (j - i)) else none

/-- **The tokens that lead to each column**, once a parser has gone back to column `i`, to which
these led. -/
def inputsBefore (inputs : Nat → Option (List Token)) (i : Nat) (input? : Option (List Token))
    (j : Nat) : Option (List Token) :=
  if j < i then inputs j else if j = i then input? else none

/-- **The columns are those to which the tokens lead**, and none lead beyond the last one. -/
structure Accounts (g : Grammar) (inputs : Nat → Option (List Token)) (p : Parser lexer) :
    Prop where
  grammar : p.grammar = g
  placed : p.Placed
  behind : ∀ {j : Nat} {b : Bookmark Mark}, p.bookmark? j = some b →
    Chart.Behind g (inputs j) b.chart
  beyond : ∀ {j : Nat}, p.current < j → inputs j = none

/-- Tokens lead to the last column. -/
theorem Accounts.behind_head (h : p.Accounts g inputs) :
    Chart.Behind g (inputs p.current) p.head.chart :=
  h.behind h.placed.bookmark?_current

/-- The tokens of the last column lead to its chart. -/
theorem Accounts.reads_head {input : List Token} (h : p.Accounts g inputs)
    (hinput : inputs p.current = some input) : Chart.Reads g input p.head.chart := by
  have hbehind := h.behind_head
  rw [hinput] at hbehind
  exact hbehind

theorem accounts_of_start {keepHistory : Bool} (h : start lexer g keepHistory fuel = some p) :
    p.Accounts g (inputsBefore (fun _ => none) 0 (some [])) := by
  obtain ⟨hgrammar, -, hpast, hopen, hcurrent, -⟩ := fresh_of_start h
  have hplaced := placed_of_start h
  refine ⟨hgrammar, hplaced, ?_, fun hj => ?_⟩
  · intro j b hb
    -- column 0 is the only one
    rcases hplaced.bookmark?_eq_some_iff.mp hb with hb | ⟨rfl, rfl⟩ | ⟨hblocked, -⟩
    · simp [hpast] at hb
    · obtain ⟨chart, hchart, rfl⟩ := Option.map_eq_some_iff.mp h
      rw [hcurrent]
      exact .initial hchart
    · exact absurd (hblocked.symm.trans hopen) (by simp)
  · rw [hcurrent] at hj
    simp [inputsBefore, Nat.ne_of_gt hj]

theorem Accounts.forget (h : p.Accounts g inputs) : p.forget.Accounts g inputs where
  grammar := (grammar_forget p).trans h.grammar
  placed := h.placed.forget
  behind := fun hb => h.behind (bookmark?_of_forget hb)
  beyond := fun hj => h.beyond (by rwa [current_forget] at hj)

/-- A token that is taken leads to the next column. -/
theorem Accounts.extend (h : p.Accounts g inputs) (hopen : p.blocked = false) {t : Token}
    (hshift : p.head.chart.shift p.grammar fuel t = some chart) (mark : Mark) :
    (p.extend chart mark).Accounts g (inputsBehind inputs p.current [t] (p.current + 1)) := by
  have hcurrent : (p.extend chart mark).current = p.current + 1 := Chart.index_shift hshift
  refine ⟨h.grammar, h.placed.extend hcurrent mark, ?_, fun hj => ?_⟩
  · intro j b hb
    have hcases := bookmark?_extend hopen chart mark hb
    rw [h.placed.size_past] at hcases
    rcases hcases with ⟨rfl, hchart⟩ | ⟨hj, hb⟩
    · rw [hchart]
      rw [h.grammar] at hshift
      simpa [inputsBehind, Nat.not_succ_le_self] using h.behind_head.shift hshift
    · simpa [inputsBehind, hj] using h.behind hb
  · rw [hcurrent] at hj
    simp [inputsBehind, Nat.not_le.mpr hj, Nat.not_le.mpr (Nat.lt_of_succ_lt hj)]

/-- A parser that stays at its column has taken nothing. -/
theorem inputsBehind_self (hbeyond : ∀ {j : Nat}, i < j → inputs j = none) (tokens : List Token) :
    inputsBehind inputs i tokens i = inputs := by
  funext j
  unfold inputsBehind
  split
  · rfl
  · next hj => rw [hbeyond (Nat.lt_of_not_le hj)]

/-- Tokens are taken one after the other. -/
theorem inputsBehind_cons (inputs : Nat → Option (List Token)) (t : Token) (rest : List Token)
    {k : Nat} (hk : i + 1 ≤ k) :
    inputsBehind (inputsBehind inputs i [t] (i + 1)) (i + 1) rest k =
      inputsBehind inputs i (t :: rest) k := by
  funext j
  rcases Nat.lt_trichotomy j (i + 1) with hj | rfl | hj
  · have hle : j ≤ i := Nat.le_of_lt_succ hj
    simp [inputsBehind, hle, Nat.le_succ_of_le hle]
  · simp [inputsBehind, hk]
  · -- behind the next column, the first token stands in front of the others
    have hsub : j - i = (j - (i + 1)) + 1 := by omega
    have hgt : ¬j ≤ i := by omega
    simp only [inputsBehind, hgt, Nat.not_le.mpr hj, Nat.not_succ_le_self, Nat.le_refl, if_true,
      if_false, hsub, Nat.add_sub_cancel_left, Option.map_map, Function.comp_def,
      List.append_assoc, List.take_succ_cons, List.take_zero, List.cons_append, List.nil_append]

/-- **The tokens of a run lead to its columns.** -/
theorem Accounts.run (h : p.Accounts g inputs) (hopen : p.blocked = false)
    (hrun : run fuel tokens p = some halt) :
    halt.parser.Accounts g
      (inputsBehind inputs p.current (tokens.map Prod.fst) halt.parser.current) := by
  induction tokens generalizing p inputs with
  | nil =>
    obtain rfl := Option.some.inj hrun
    rwa [inputsBehind_self h.beyond]
  | cons token rest ih =>
    obtain ⟨chart, hshift, ⟨-, rfl⟩ | ⟨-, hrest⟩⟩ := run_cons_cases hrun
    · -- the token that is refused leads to no column
      rw [current_forget, inputsBehind_self h.beyond]
      exact h.forget
    · have hcurrent : (p.forget.extend chart token.2).current = p.current + 1 :=
        Chart.index_shift hshift
      have hle := current_le_run hrest
      have hnext : (p.forget.extend chart token.2).Accounts g
          (inputsBehind inputs p.current [token.1] (p.current + 1)) := by
        have hforget : p.forget.head.chart.shift p.forget.grammar fuel token.1 = some chart := by
          rwa [head_forget, grammar_forget]
        rw [← current_forget p]
        exact h.forget.extend ((blocked_forget p).trans hopen) hforget token.2
      -- the other tokens lead on from the new column
      have hrun := ih hnext ((blocked_forget p).trans hopen) hrest
      rw [hcurrent] at hle hrun
      rwa [inputsBehind_cons inputs token.1 _ hle] at hrun

/-- Whether the latest input was refused is of no account, since no tokens lead to the empty column
behind it. -/
theorem Accounts.congr (h : p.Accounts g inputs) (hgrammar : q.grammar = p.grammar)
    (hpast : q.past = p.past) (hhead : q.head = p.head) : q.Accounts g inputs := by
  have hplaced := h.placed.congr hpast hhead
  have hcurrent : q.current = p.current := congrArg Bookmark.index hhead
  refine ⟨hgrammar.trans h.grammar, hplaced, ?_, fun hj => h.beyond (hcurrent ▸ hj)⟩
  intro j b hb
  rcases hplaced.bookmark?_eq_some_iff.mp hb with hb | ⟨rfl, rfl⟩ | ⟨-, rfl, rfl⟩
  · exact h.behind (bookmark?_eq_some_iff.mpr (.inl (hpast ▸ hb)))
  · rw [hcurrent, hhead]
    exact h.behind_head
  · -- the empty column stands behind the last one
    rw [h.beyond (Nat.lt_succ_of_le (Nat.le_of_eq hcurrent.symm))]
    rfl

theorem Accounts.feed (h : p.Accounts g inputs) (hfeed : p.feed fuel chunk = some fed) :
    fed.parser.Accounts g
      (inputsBehind inputs p.current (p.tokensOf chunk) fed.parser.current) := by
  rw [feed_eq_map] at hfeed
  obtain ⟨halt, hrun, rfl⟩ := Option.map_eq_some_iff.mp hfeed
  have hopen : p.unblock.Accounts g inputs := h.congr rfl rfl rfl
  rw [current_conclude]
  exact (hopen.run rfl hrun).congr (grammar_conclude ..) (past_conclude ..) (head_conclude ..)

/-- Going back to a bookmark, a parser comes to the column to which the tokens of the bookmark
led. -/
theorem Accounts.restore (h : p.Accounts g inputs) {b : Bookmark Mark}
    (hb : Chart.Behind g input? b.chart) :
    (p.restore b).Accounts g (inputsBefore inputs b.index input?) where
  grammar := h.grammar
  placed := h.placed.restore b
  behind := by
    intro j c hc
    rw [bookmark?_restore] at hc
    unfold inputsBefore
    split at hc
    · next hj => simpa [hj] using h.behind hc
    · split at hc
      · next hlt heq =>
        obtain rfl := Option.some.inj hc
        simpa [hlt, heq] using hb
      · exact nomatch hc
  beyond := by
    intro j hj
    have hj : b.index < j := hj
    simp [inputsBefore, Nat.not_lt_of_lt hj, Nat.ne_of_gt hj]

/-! ## Sessions -/

/-- Sessions in which chunks are fed and the parser goes back, to its columns and to the bookmarks of
parsers in such sessions. The log says which tokens led to the columns, and what the error of the
latest chunk was, unless the parser went back since. -/
def accounting (g : Grammar) :
    Terms lexer ((Nat → Option (List Token)) × Option InputError) where
  begins p := ∃ keepHistory fuel, start lexer g keepHistory fuel = some p
  first := (inputsBefore (fun _ => none) 0 (some []), none)
  follows log p operation fed next :=
    match operation with
    | .feed _ chunk =>
      next = (inputsBehind log.1 p.current (p.tokensOf chunk) fed.parser.current, fed.error)
    | .rewind i => next = (inputsBefore log.1 i (log.1 i), none)
    | _ => False
  borrows log other saved next :=
    next = (inputsBefore log.1 saved.current (other.1 saved.current), none)

/-- **The parsers of a session**, with the tokens that led to their columns and the error of the
latest chunk, unless the parser went back since. -/
def Led (g : Grammar) (inputs : Nat → Option (List Token)) (refusal : Option InputError)
    (p : Parser lexer) : Prop :=
  Session (accounting g) (inputs, refusal) p

theorem led_of_start {keepHistory : Bool} (h : start lexer g keepHistory fuel = some p) :
    p.Led g (inputsBefore (fun _ => none) 0 (some [])) none :=
  .start ⟨keepHistory, fuel, h⟩

theorem Led.feed (hp : p.Led g inputs refusal) (h : p.feed fuel chunk = some fed) :
    fed.parser.Led g (inputsBehind inputs p.current (p.tokensOf chunk) fed.parser.current)
      fed.error :=
  .step hp (.feed h) rfl

theorem Led.rewind (hp : p.Led g inputs refusal) (h : p.rewind i = .ok q) :
    q.Led g (inputsBefore inputs i (inputs i)) none :=
  .step hp (.rewind h) rfl

/-- **In a session the tokens lead to the columns.** -/
theorem Led.accounts (h : p.Led g inputs refusal) :
    p.Accounts g inputs ∧ p.blocked = refusal.isSome := by
  refine Session.invariant (I := fun log p => p.Accounts g log.1 ∧ p.blocked = log.2.isSome) h
    ?_ ?_ ?_
  · rintro p ⟨keepHistory, fuel, h⟩
    exact ⟨accounts_of_start h, (fresh_of_start h).2.2.2.1⟩
  · rintro log next p operation fed ⟨haccounts, -⟩ hstep hnext
    cases hstep with
    | feed h =>
      obtain rfl := hnext
      exact ⟨haccounts.feed h, blocked_feed h⟩
    | rewind h =>
      obtain rfl := hnext
      -- the bookmark is that of the column, so the tokens of the column led to it
      obtain ⟨-, b, hb, rfl⟩ := rewind_eq_ok_iff.mp h
      obtain rfl := haccounts.placed.index_of_bookmark? hb
      exact ⟨haccounts.restore (haccounts.behind hb), rfl⟩
    | save | restore => exact False.elim hnext
  · rintro log other next p saved ⟨haccounts, -⟩ ⟨hsaved, -⟩ hnext
    obtain rfl := hnext
    exact ⟨haccounts.restore hsaved.behind_head, rfl⟩

/-- **The results of a parser** are those of its last column, unless the latest chunk was refused:
then there are none, and it is only if the last column has none that this is the same. The results
of the last column are the values of the trees of the tokens that led to it, as many tokens as there
are columns before. -/
theorem finish_led (hp : p.Led g inputs refusal) :
    ∃ chart, p.column? p.current = some chart ∧
      (p.finish = chart.results g.start ↔ refusal = none ∨ chart.results g.start = []) ∧
      (refusal ≠ none → p.finish = []) ∧
      (∀ input, inputs p.current = some input → input.length = p.current ∧
        ∃ trees : List Tree, trees.Nodup ∧ (∀ tree, tree ∈ trees ↔ tree.Parses g input) ∧
          (chart.results g.start).map some = trees.map (Tree.value? 0)) ∧
      (inputs p.current = none → chart.results g.start = []) := by
  obtain ⟨haccounts, hblocked⟩ := hp.accounts
  have hbehind := haccounts.behind_head
  have hfinish : p.finish = if refusal = none then p.head.chart.results g.start else [] := by
    rw [finish, hblocked, haccounts.grammar]
    cases refusal <;> rfl
  refine ⟨p.head.chart, haccounts.placed.column?_current, ?_, ?_, ?_, ?_⟩
  · rw [hfinish]
    split
    · next hnone => simp [hnone]
    · next hne =>
      simp only [hne, false_or]
      exact eq_comm
  · intro hne
    rw [hfinish, if_neg hne]
  · intro input hinput
    rw [hinput] at hbehind
    have hreads : Chart.Reads g input p.head.chart := hbehind
    exact ⟨hreads.index_eq.symm, Chart.results_eq hreads⟩
  · intro hnone
    rw [hnone] at hbehind
    exact Chart.results_of_head_eq hbehind g.start

/-- One letter is taken, one is refused, and behind a rewind to column 1 the letter that was taken
has its result. -/
theorem finish_led_padded :
    ∃ (inputs : Nat → Option (List Token)) (p : Parser characters.toLexer),
      p.Led padded inputs none ∧ p.current = 1 ∧
        inputs 1 = some [Characters.tokenAt {} 'a'] ∧ p.finish.length = 1 ∧
          ∃ trees : List Tree, trees.Nodup ∧
            (∀ tree, tree ∈ trees ↔ tree.Parses padded [Characters.tokenAt {} 'a']) ∧
              p.finish.map some = trees.map (Tree.value? 0) := by
  have hrun : (start characters.toLexer padded true 20).any (fun fresh =>
      (fresh.feed 20 "a").any fun first => fresh.current == 0 && first.parser.current == 1 &&
        fresh.tokensOf "a" == [Characters.tokenAt {} 'a'] &&
          (first.parser.feed 20 "b").any fun fed => fed.error.isSome &&
            match fed.parser.rewind 1 with
            | .ok p => p.current == 1 && p.finish.length == 1
            | .error _ => false) = true := by decide +kernel
  obtain ⟨fresh, hfresh, hrun⟩ := (Option.any_eq_true _ _).mp hrun
  obtain ⟨first, hfirst, hrun⟩ := (Option.any_eq_true _ _).mp hrun
  obtain ⟨hsound, hrun⟩ := (Bool.and_eq_true _ _).mp hrun
  obtain ⟨fed, hfed, hrun⟩ := (Option.any_eq_true _ _).mp hrun
  simp only [Bool.and_eq_true, beq_iff_eq] at hsound
  obtain ⟨⟨hzero, hone⟩, htokens⟩ := hsound
  cases hrewind : fed.parser.rewind 1 with
  | error e => simp [hrewind] at hrun
  | ok p =>
    have hresult : fed.error.isSome = true ∧ p.current = 1 ∧ p.finish.length = 1 := by
      simpa [hrewind] using hrun
    obtain ⟨inputs, hled, hinputs⟩ : ∃ inputs, p.Led padded inputs none ∧
        inputs 1 = some [Characters.tokenAt {} 'a'] :=
      ⟨_, (((led_of_start hfresh).feed hfirst).feed hfed).rewind hrewind, by
        simp [inputsBefore, inputsBehind, hzero, hone, htokens]⟩
    obtain ⟨chart, -, hfinish, -, htrees, -⟩ := finish_led hled
    rw [hresult.2.1] at htrees
    obtain ⟨-, trees, hnodup, hmem, hvalues⟩ := htrees _ hinputs
    refine ⟨inputs, p, hled, hresult.2.1, hinputs, hresult.2.2, trees, hnodup, hmem, ?_⟩
    rw [hfinish.mpr (.inl rfl)]
    exact hvalues

/-- Behind the letter that is refused, column 1 has its result, and the parser has none. -/
theorem finish_behind_refused :
    ∃ (inputs : Nat → Option (List Token)) (e : InputError) (p : Parser characters.toLexer)
      (chart : Chart), p.Led padded inputs (some e) ∧ p.current = 1 ∧
        p.column? 1 = some chart ∧ (chart.results padded.start).length = 1 ∧ p.finish = [] := by
  have hrun : (start characters.toLexer padded true 20).any (fun fresh =>
      (fresh.feed 20 "a").any fun first => (first.parser.feed 20 "b").any fun fed =>
        fed.error.isSome && fed.parser.current == 1 &&
          (fed.parser.column? 1).any (fun chart => (chart.results padded.start).length == 1) &&
            fed.parser.finish.isEmpty) = true := by decide +kernel
  obtain ⟨fresh, hfresh, hrun⟩ := (Option.any_eq_true _ _).mp hrun
  obtain ⟨first, hfirst, hrun⟩ := (Option.any_eq_true _ _).mp hrun
  obtain ⟨fed, hfed, hresult⟩ := (Option.any_eq_true _ _).mp hrun
  simp only [Bool.and_eq_true, beq_iff_eq, List.isEmpty_iff] at hresult
  obtain ⟨⟨⟨hsome, hone⟩, hcolumn⟩, hfinish⟩ := hresult
  obtain ⟨e, he⟩ := Option.isSome_iff_exists.mp hsome
  obtain ⟨chart, hchart, hresults⟩ := (Option.any_eq_true _ _).mp hcolumn
  have hled := ((led_of_start hfresh).feed hfirst).feed hfed
  rw [he] at hled
  exact ⟨_, e, fed.parser, chart, hled, hone, hchart, by simpa using hresults, hfinish⟩

end Parser

end Earley
