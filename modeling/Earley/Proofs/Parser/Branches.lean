import Earley.Proofs.Parser.Finishing
import Earley.Proofs.Parser.Rewinding

/-!
# Branches of a session

A session that goes back and takes other tokens begins another branch. The bookmarks of the branch
that it left can still be restored. A bookmark brings back its own column only: of the columns before
it, those of the branch that the parser was on stay in the table, and the empty column behind refused
input, if it was there. So the columns of a parser need not be those of one input any more, and
rewinding may come to a column of another branch.

Column for column, an input can be told from its chart, unless it ends with an empty column. So it can
be said when the columns of a parser are those of the input that led to its last one: exactly if the
beginnings of this input led to them. Feeding and rewinding keep it so. A bookmark can be restored to
this effect exactly if the beginnings of its own input led to the columns before it.

## Main definitions

* `Parser.retracing`, `Parser.Retraced`: the parsers of a session, with the tokens that led to their
  columns and to the bookmarks that were saved
* `Parser.OneHistory`: the columns of a parser are those of one input
* `Parser.Traced`, `Bookmark.Recorded`: columns and bookmarks with the tokens that led to them

## Main results

* `Chart.Reads.eq_of_fills`: a chart tells its input
* `Parser.Retraced.traced`: in a session the tokens led to the columns
* `Parser.Traced.oneHistory_iff`: when the columns are those of one input
* `Parser.oneHistory_retraced`: what feeding, rewinding and restoring do to this
-/

namespace Earley

variable {Chunk Mark : Type} {lexer : Lexer Chunk Mark} {g : Grammar} {fuel i j : Nat}
  {input tokens : List Token} {input? : Option (List Token)}
  {inputs : Nat → Option (List Token)} {saved : List (Bookmark Mark × Option (List Token))}
  {chunk : Chunk} {chart : Chart} {b : Bookmark Mark} {p q : Parser lexer} {fed : Fed lexer}

namespace Chart

/-! ## Inputs that fill columns -/

/-- Fewer tokens fill their columns too. -/
theorem Fills.mono {front : List Token} (h : Fills g input tokens) (hfront : front <+: tokens) :
    Fills g input front :=
  fun before t hbefore => h before t (hbefore.trans hfront)

/-- Tokens that fill columns behind an input which does so itself. -/
theorem Fills.append (h : Fills g [] input) (hmore : Fills g input tokens) :
    Fills g [] (input ++ tokens) := by
  intro front t hfront
  rcases List.prefix_or_prefix_of_prefix hfront (List.prefix_append input tokens) with hin | hbehind
  · exact h front t hin
  · obtain ⟨rest, hrest⟩ := hbehind
    rcases List.eq_nil_or_concat rest with rfl | ⟨more, t', rfl⟩
    · rw [List.append_nil] at hrest
      exact h front t (hrest ▸ List.prefix_refl _)
    · -- the token is one of those behind the input
      rw [List.concat_eq_append, ← List.append_assoc] at hrest
      obtain ⟨rfl, htoken⟩ := List.append_inj' hrest rfl
      obtain rfl := List.singleton_inj.mp htoken
      rw [List.append_assoc, List.prefix_append_right_inj] at hfront
      simpa using hmore more t' hfront

/-- Behind the last token of such an input there is an item. -/
theorem Reads.isEmpty_head (h : Reads g input chart) (hfills : Fills g [] input)
    (hne : input ≠ []) : chart.head.isEmpty = false := by
  obtain ⟨front, t, rfl⟩ := List.eq_nil_or_concat input |>.resolve_left hne
  rw [List.concat_eq_append] at h hfills
  obtain ⟨last, hlast, hfull⟩ := hfills front t (List.prefix_refl _)
  obtain rfl := hlast.unique h
  exact hfull

/-- **A chart tells its input**, if this fills its columns. -/
theorem Reads.eq_of_fills {input' : List Token} (h : Reads g input chart)
    (h' : Reads g input' chart) (hfills : Fills g [] input) : input = input' := by
  have hlength : input.length = input'.length := h.index_eq.symm.trans h'.index_eq
  induction input using List.reverseRecOn generalizing chart input' with
  | nil => exact (List.eq_nil_of_length_eq_zero hlength.symm).symm
  | append_singleton front t ih =>
    rcases List.eq_nil_or_concat input' with rfl | ⟨front', t', rfl⟩
    · simp at hlength
    · rw [List.concat_eq_append] at h' hlength ⊢
      have hfull := h.isEmpty_head hfills (by simp)
      obtain ⟨rfl, before, hbefore, hbefore'⟩ := h.concat_inj h' hfull
      have hfront : Fills g [] front := hfills.mono (List.prefix_append front [t])
      rw [ih hbefore hbefore' hfront (by simpa using hlength)]

end Chart

namespace Parser

/-- The tokens that a chunk brought fill their columns. -/
theorem fills_of_takes {failure : Option LexError} (hreads : Chart.Reads g input p.head.chart)
    (h : fed.Takes g input tokens failure) :
    Chart.Fills g input (tokens.take (fed.parser.current - p.current)) := by
  have hcurrent : p.current = input.length := hreads.index_eq
  cases h with
  | whole _ hfills | unreadable _ hfills => exact hfills.mono (List.take_prefix _ _)
  | @unexpected taken rest t chart htokens hreads' hfills =>
    have hcurrent' : fed.parser.current = (input ++ taken).length := hreads'.index_eq
    rw [hcurrent, hcurrent', List.length_append, Nat.add_sub_cancel_left, htokens, List.take_left]
    exact hfills

end Parser

/-! ## Columns and bookmarks with the tokens that led to them -/

/-- **A bookmark with the tokens that led to it**, or with none if it is of the empty column behind
refused input. -/
structure Bookmark.Recorded (g : Grammar) (input? : Option (List Token)) (b : Bookmark Mark) :
    Prop where
  behind : Chart.Behind g input? b.chart
  fills : ∀ {input : List Token}, input? = some input → Chart.Fills g [] input
  zero : b.index = 0 → input? = some []

namespace Parser

/-- Tokens that lead to a column of a parser that has gone back led to it before, or to the column
that it has gone back to. -/
theorem cases_of_inputsBefore (h : inputsBefore inputs i input? j = some input) :
    inputs j = some input ∨ input? = some input := by
  unfold inputsBefore at h
  split at h
  · exact .inl h
  · split at h
    · exact .inr h
    · exact nomatch h

/-- **A parser that keeps its history, with the tokens that led to its columns.** -/
structure Traced (g : Grammar) (inputs : Nat → Option (List Token)) (p : Parser lexer) : Prop
    extends p.Accounts g inputs where
  keeps : p.keepHistory = true
  zero : inputs 0 = some []
  fills : ∀ {j : Nat} {input : List Token}, inputs j = some input → Chart.Fills g [] input

/-- The bookmark of a column has the tokens of the column. -/
theorem Traced.recorded (h : p.Traced g inputs) (hb : p.bookmark? j = some b) :
    b.Recorded g (inputs j) where
  behind := h.behind hb
  fills := h.fills
  zero := fun hzero => by
    rw [← h.placed.index_of_bookmark? hb, hzero]
    exact h.zero

theorem traced_of_start (h : start lexer g true fuel = some p) :
    p.Traced g (inputsBefore (fun _ => none) 0 (some [])) where
  toAccounts := accounts_of_start h
  keeps := (fresh_of_start h).2.1
  zero := rfl
  fills := fun hinput => by
    rcases cases_of_inputsBefore hinput with hnone | hempty
    · exact nomatch hnone
    · obtain rfl := Option.some.inj hempty
      exact Chart.fills_nil g []

theorem Traced.feed (h : p.Traced g inputs) (hfeed : p.feed fuel chunk = some fed) :
    fed.parser.Traced g
      (inputsBehind inputs p.current (p.tokensOf chunk) fed.parser.current) where
  toAccounts := h.toAccounts.feed hfeed
  keeps := (Step.feed hfeed).frame.2.trans h.keeps
  zero := by
    rw [inputsBehind, if_pos (Nat.zero_le _)]
    exact h.zero
  fills := fun {j input} hinput => by
    unfold inputsBehind at hinput
    split at hinput
    · exact h.fills hinput
    · split at hinput
      · next hj =>
        -- what was taken fills the columns behind the last one
        obtain ⟨before, hbefore, rfl⟩ := Option.map_eq_some_iff.mp hinput
        have hreads := h.reads_head hbefore
        have htakes := (takes_feed h.grammar hreads hfeed).2
        refine (h.fills hbefore).append ((fills_of_takes hreads htakes).mono ?_)
        exact List.take_prefix_take_left (Nat.sub_le_sub_right hj _)
      · contradiction

theorem Traced.restore (h : p.Traced g inputs) (hb : b.Recorded g input?) :
    (p.restore b).Traced g (inputsBefore inputs b.index input?) where
  toAccounts := h.toAccounts.restore hb.behind
  keeps := h.keeps
  zero := by
    unfold inputsBefore
    split
    · exact h.zero
    · next hle =>
      have hzero : b.index = 0 := Nat.eq_zero_of_not_pos hle
      rw [if_pos hzero.symm]
      exact hb.zero hzero
  fills := fun hinput => (cases_of_inputsBefore hinput).elim h.fills hb.fills

/-! ## One history -/

/-- **The columns of a parser are those of one input**: the input that led to the last column, as
many of its tokens as there are columns before, leads to each column that is kept. -/
def OneHistory (g : Grammar) (inputs : Nat → Option (List Token)) (p : Parser lexer) : Prop :=
  ∃ input, inputs p.current = some input ∧
    ∀ j chart, j ≤ p.current → p.column? j = some chart → Chart.Reads g (input.take j) chart

/-- The input of the last column leads to the columns before it exactly if they have its beginnings. -/
theorem Traced.reads_iff (h : p.Traced g inputs) (hinput : inputs p.current = some input) :
    (∀ j chart, j ≤ p.current → p.column? j = some chart → Chart.Reads g (input.take j) chart) ↔
      ∀ j < p.current, (p.column? j).isSome = true → inputs j = some (input.take j) := by
  have hreads := h.reads_head hinput
  have hlength : p.current = input.length := hreads.index_eq
  constructor
  · intro hall j hj hkept
    obtain ⟨b, hb⟩ := isSome_column?_iff.mp hkept
    have hfront : Chart.Reads g (input.take j) b.chart :=
      hall j b.chart (Nat.le_of_lt hj) (column?_of_bookmark? hb)
    have hfills : Chart.Fills g [] (input.take j) :=
      (h.fills hinput).mono (List.take_prefix j input)
    have hled := h.behind hb
    cases hinputs : inputs j with
    | some input' =>
      rw [hinputs] at hled
      rw [hfront.eq_of_fills hled hfills]
    | none =>
      -- an empty column is not the one behind tokens that fill their columns
      rw [hinputs] at hled
      have hempty : b.chart.head = {} := hled
      have hpos : 0 < j := Nat.pos_of_ne_zero fun hzero => by
        simp [hzero, h.zero] at hinputs
      have hne : input.take j ≠ [] := List.ne_nil_of_length_pos (by rw [List.length_take]; omega)
      have hfull := hfront.isEmpty_head hfills hne
      rw [hempty] at hfull
      exact Bool.noConfusion hfull
  · intro hall j chart hj hcolumn
    obtain ⟨b, hb, rfl⟩ := Option.map_eq_some_iff.mp hcolumn
    have hled := h.behind hb
    rcases Nat.lt_or_eq_of_le hj with hlt | rfl
    · rw [hall j hlt (isSome_column?_iff.mpr ⟨b, hb⟩)] at hled
      exact hled
    · rw [hinput] at hled
      rwa [hlength, List.take_length]

/-- **When the columns are those of one input**: exactly if the beginnings of the input that led to
the last column led to the columns before it. -/
theorem Traced.oneHistory_iff (h : p.Traced g inputs) :
    p.OneHistory g inputs ↔
      ∃ input, inputs p.current = some input ∧
        ∀ j < p.current, (p.column? j).isSome = true → inputs j = some (input.take j) :=
  exists_congr fun _ => and_congr_right fun hinput => h.reads_iff hinput

/-- Behind the input that led to a column, its further tokens lead to the columns behind. -/
theorem inputsBehind_of_le {k : Nat} (hinput : inputs i = some input) (hlength : input.length = i)
    (hij : i ≤ j) (hjk : j ≤ k) (tokens : List Token) :
    inputsBehind inputs i tokens k j = some ((input ++ tokens.take (k - i)).take j) := by
  have htake : (input ++ tokens.take (k - i)).take j = input ++ tokens.take (j - i) := by
    rw [List.take_append, List.take_of_length_le (hlength.trans_le hij), List.take_take, hlength,
      Nat.min_eq_left (Nat.sub_le_sub_right hjk i)]
  rw [htake, inputsBehind]
  split
  · next hji =>
    obtain rfl := Nat.le_antisymm hji hij
    simpa using hinput
  · rw [hinput]
    rfl

/-- **Feeding keeps to one history.** -/
theorem Traced.oneHistory_feed (h : p.Traced g inputs) (hone : p.OneHistory g inputs)
    (hfeed : p.feed fuel chunk = some fed) :
    fed.parser.OneHistory g
      (inputsBehind inputs p.current (p.tokensOf chunk) fed.parser.current) := by
  have hle := current_le_feed hfeed
  obtain ⟨input, hinput, hall⟩ := h.oneHistory_iff.mp hone
  have hlength : input.length = p.current := (h.reads_head hinput).index_eq.symm
  refine (h.feed hfeed).oneHistory_iff.mpr ⟨input ++ (p.tokensOf chunk).take
    (fed.parser.current - p.current), ?_, fun j hj hkept => ?_⟩
  · rw [inputsBehind_of_le hinput hlength hle (Nat.le_refl _), List.take_of_length_le]
    rw [List.length_append, List.length_take, hlength]
    omega
  · rcases Nat.lt_or_ge j p.current with hlt | hge
    · -- the column was there before
      have hsame := h.placed.bookmark?_feed h.keeps hfeed (Nat.le_of_lt hlt)
      rw [isSome_column?_iff, hsame, ← isSome_column?_iff] at hkept
      rw [inputsBehind, if_pos (Nat.le_of_lt hlt), hall j hlt hkept,
        List.take_append_of_le_length (by omega)]
    · exact inputsBehind_of_le hinput hlength hge (Nat.le_of_lt hj) _

/-- **When a bookmark is restored to one history**: exactly if the beginnings of its input led to the
columns before it. -/
theorem Traced.oneHistory_restore (h : p.Traced g inputs) (hb : b.Recorded g input?) :
    (p.restore b).OneHistory g (inputsBefore inputs b.index input?) ↔
      ∃ input, input? = some input ∧
        ∀ j < b.index, (p.column? j).isSome = true → inputs j = some (input.take j) := by
  rw [(h.restore hb).oneHistory_iff]
  have hcurrent : (p.restore b).current = b.index := rfl
  have hlast : inputsBefore inputs b.index input? b.index = input? := by simp [inputsBefore]
  rw [hcurrent, hlast]
  refine exists_congr fun input => and_congr_right fun _ => forall₂_congr fun j hj => ?_
  have hcolumn : (p.restore b).column? j = p.column? j := by
    rw [column?_eq_map, bookmark?_restore, if_pos hj, ← column?_eq_map]
  rw [hcolumn, inputsBefore, if_pos hj]

/-! ## Sessions -/

/-- Sessions of parsers that keep their history and go back to their own columns and bookmarks. The log
says which tokens led to the columns, and to the bookmarks that were saved. -/
def retracing (g : Grammar) :
    Terms lexer ((Nat → Option (List Token)) × List (Bookmark Mark × Option (List Token))) where
  begins p := ∃ fuel, start lexer g true fuel = some p
  first := (inputsBefore (fun _ => none) 0 (some []), [])
  follows log p operation fed next :=
    match operation with
    | .feed _ chunk =>
      next = (inputsBehind log.1 p.current (p.tokensOf chunk) fed.parser.current, log.2)
    | .rewind i => i ≤ p.current ∧ next = (inputsBefore log.1 i (log.1 i), log.2)
    | .save => next = (log.1, (p.save, log.1 p.current) :: log.2)
    | .restore b =>
      ∃ input?, (b, input?) ∈ log.2 ∧ next = (inputsBefore log.1 b.index input?, log.2)

/-- **The parsers of a session that goes back to its own columns and bookmarks**, with the tokens
that led to the columns, and the bookmarks that were saved with the tokens that led to these. -/
def Retraced (g : Grammar) (inputs : Nat → Option (List Token))
    (saved : List (Bookmark Mark × Option (List Token))) (p : Parser lexer) : Prop :=
  Session (retracing g) (inputs, saved) p

theorem retraced_of_start (h : start lexer g true fuel = some p) :
    p.Retraced g (inputsBefore (fun _ => none) 0 (some [])) [] :=
  .start ⟨fuel, h⟩

theorem Retraced.feed (hp : p.Retraced g inputs saved) (h : p.feed fuel chunk = some fed) :
    fed.parser.Retraced g
      (inputsBehind inputs p.current (p.tokensOf chunk) fed.parser.current) saved :=
  .step hp (.feed h) rfl

theorem Retraced.rewind (hp : p.Retraced g inputs saved) (hi : i ≤ p.current)
    (h : p.rewind i = .ok q) : q.Retraced g (inputsBefore inputs i (inputs i)) saved :=
  .step hp (.rewind h) ⟨hi, rfl⟩

theorem Retraced.save (hp : p.Retraced g inputs saved) :
    p.Retraced g inputs ((p.save, inputs p.current) :: saved) :=
  .step hp .save rfl

theorem Retraced.restore (hp : p.Retraced g inputs saved) (hb : (b, input?) ∈ saved) :
    (p.restore b).Retraced g (inputsBefore inputs b.index input?) saved :=
  .step hp (.restore b) ⟨input?, hb, rfl⟩

/-- **In a session the tokens led to the columns**, and to the bookmarks. -/
theorem Retraced.traced (h : p.Retraced g inputs saved) :
    p.Traced g inputs ∧ ∀ b input?, (b, input?) ∈ saved → b.Recorded g input? := by
  refine Session.invariant (I := fun log p => p.Traced g log.1 ∧
    ∀ b input?, (b, input?) ∈ log.2 → b.Recorded g input?) h ?_ ?_ ?_
  · rintro p ⟨fuel, h⟩
    exact ⟨traced_of_start h, by simp [retracing]⟩
  · rintro log next p operation fed ⟨htraced, hsaved⟩ hstep hnext
    cases hstep with
    | feed h =>
      obtain rfl := hnext
      exact ⟨htraced.feed h, hsaved⟩
    | rewind h =>
      obtain ⟨-, rfl⟩ := hnext
      obtain ⟨-, b, hb, rfl⟩ := rewind_eq_ok_iff.mp h
      obtain rfl := htraced.placed.index_of_bookmark? hb
      exact ⟨htraced.restore (htraced.recorded hb), hsaved⟩
    | save =>
      obtain rfl := hnext
      -- the new bookmark is that of the last column
      refine ⟨htraced, fun b input? hb => ?_⟩
      rcases List.mem_cons.mp hb with hnew | hold
      · obtain ⟨rfl, rfl⟩ := Prod.mk.inj hnew
        exact htraced.recorded htraced.placed.bookmark?_current
      · exact hsaved b input? hold
    | restore b =>
      obtain ⟨input?, hb, rfl⟩ := hnext
      exact ⟨htraced.restore (hsaved b input? hb), hsaved⟩
  · exact fun _ _ _ _ _ _ _ h => False.elim h

/-- **Rewinding keeps to one history**, and comes to the beginning of the input. -/
theorem Traced.oneHistory_rewind (h : p.Traced g inputs) (hone : p.OneHistory g inputs)
    (hi : i ≤ p.current) (hb : p.bookmark? i = some b) (hinput : inputs p.current = some input) :
    (p.restore b).OneHistory g (inputsBefore inputs i (inputs i)) ∧
      Chart.Reads g (input.take i) b.chart := by
  obtain ⟨input', hinput', hreads⟩ := hone
  obtain rfl := Option.some.inj (hinput.symm.trans hinput')
  have hall := (h.reads_iff hinput).mp hreads
  have hindex := h.placed.index_of_bookmark? hb
  have hcolumn : p.column? i = some b.chart := column?_of_bookmark? hb
  have hfront : inputs i = some (input.take i) := by
    rcases Nat.lt_or_eq_of_le hi with hlt | rfl
    · exact hall i hlt (isSome_column?_iff.mpr ⟨b, hb⟩)
    · have hlength : p.current = input.length := (h.reads_head hinput).index_eq
      rw [hinput, hlength, List.take_length]
  refine ⟨?_, hreads i b.chart hi hcolumn⟩
  have hback := h.oneHistory_restore (h.recorded hb)
  rw [hindex] at hback
  refine hback.mpr ⟨input.take i, hfront, fun j hj hkept => ?_⟩
  rw [List.take_take, Nat.min_eq_left (Nat.le_of_lt hj)]
  exact hall j (Nat.lt_of_lt_of_le hj hi) hkept

/-- **When a session keeps to one history.** The columns of a parser are those of the input that led
to the last one exactly if the beginnings of this input led to the columns before it. Feeding keeps it
so. A parser can be rewound to each column that is kept; then it is so again, and the results are the
values of the trees of the beginning of the input. A bookmark can be restored to this effect exactly
if the beginnings of its own input led to the columns before it. -/
theorem oneHistory_retraced (hp : p.Retraced g inputs saved) :
    (p.OneHistory g inputs ↔ ∃ input, inputs p.current = some input ∧
      ∀ j < p.current, (p.column? j).isSome = true → inputs j = some (input.take j)) ∧
    (∀ fuel chunk fed, p.feed fuel chunk = some fed → p.OneHistory g inputs →
      fed.parser.OneHistory g
        (inputsBehind inputs p.current (p.tokensOf chunk) fed.parser.current)) ∧
    (∀ i ≤ p.current, (p.column? i).isSome = true →
      ∃ q, p.rewind i = .ok q ∧ q.current = i ∧
        (p.OneHistory g inputs → q.OneHistory g (inputsBefore inputs i (inputs i)) ∧
          ∀ input, inputs p.current = some input →
            ∃ trees : List Tree, trees.Nodup ∧
              (∀ tree, tree ∈ trees ↔ tree.Parses g (input.take i)) ∧
                q.results.map some = trees.map (Tree.value? 0))) ∧
    ∀ b input?, (b, input?) ∈ saved →
      ((p.restore b).OneHistory g (inputsBefore inputs b.index input?) ↔
        ∃ input, input? = some input ∧
          ∀ j < b.index, (p.column? j).isSome = true → inputs j = some (input.take j)) := by
  obtain ⟨htraced, hsaved⟩ := hp.traced
  refine ⟨htraced.oneHistory_iff, fun fuel chunk fed hfeed hone => htraced.oneHistory_feed hone hfeed,
    fun i hi hkept => ?_, fun b input? hb => htraced.oneHistory_restore (hsaved b input? hb)⟩
  obtain ⟨b, hb⟩ := isSome_column?_iff.mp hkept
  refine ⟨p.restore b, rewind_eq_ok_iff.mpr ⟨htraced.keeps, b, hb, rfl⟩,
    htraced.placed.index_of_bookmark? hb, fun hone => ⟨?_, fun input hinput => ?_⟩⟩
  · obtain ⟨input, hinput, -⟩ := id hone
    exact (htraced.oneHistory_rewind hone hi hb hinput).1
  · have hreads := (htraced.oneHistory_rewind hone hi hb hinput).2
    have hresults : (p.restore b).results = b.chart.results p.grammar.start := rfl
    rw [hresults, htraced.grammar]
    exact Chart.results_eq hreads

/-- A letter, another one, or the first with one more behind it. -/
def forked : Grammar where
  start := "S"
  rules :=
    [{ name := "S", symbols := [.literal "a" false] },
     { name := "S", symbols := [.literal "c" false] },
     { name := "S", symbols := [.literal "a" false, .literal "b" false] }]

/-- Two letters are taken and saved, and the parser goes back behind the first of them. The bookmark
can be restored. -/
theorem oneHistory_forked :
    ∃ (inputs : Nat → Option (List Token)) (saved : List (Bookmark Position × Option (List Token)))
      (p : Parser characters.toLexer) (b : Bookmark Position) (input? : Option (List Token)),
      p.Retraced forked inputs saved ∧ p.current = 1 ∧ (b, input?) ∈ saved ∧ b.index = 2 ∧
        (p.restore b).OneHistory forked (inputsBefore inputs b.index input?) := by
  have hrun : (start characters.toLexer forked true 20).any (fun fresh =>
      (fresh.feed 20 "ab").any fun fed => (fed.parser.rewind 1).toOption.any fun back =>
        fresh.current == 0 && fed.parser.current == 2 && back.current == 1 &&
          fresh.tokensOf "ab" == [Characters.tokenAt {} 'a',
            Characters.tokenAt { offset := 1, col := 1 } 'b']) = true := by
    decide +kernel
  obtain ⟨fresh, hfresh, hrun⟩ := (Option.any_eq_true _ _).mp hrun
  obtain ⟨fed, hfed, hrun⟩ := (Option.any_eq_true _ _).mp hrun
  obtain ⟨back, hback, hresult⟩ := exists_of_any_rewind hrun
  simp only [Bool.and_eq_true, beq_iff_eq] at hresult
  obtain ⟨⟨⟨hzero, htwo⟩, hone⟩, htokens⟩ := hresult
  have hle : 1 ≤ fed.parser.current := by omega
  have hretraced := ((retraced_of_start hfresh).feed hfed).save.rewind hle hback
  have hmem := List.mem_singleton_self (fed.parser.save, inputsBehind
    (inputsBefore (fun _ => none) 0 (some [])) fresh.current (fresh.tokensOf "ab")
      fed.parser.current fed.parser.current)
  have hindex : fed.parser.save.index = 2 := htwo
  refine ⟨_, _, back, _, _, hretraced, hone, hmem, htwo,
    ((oneHistory_retraced hretraced).2.2.2 _ _ hmem).mpr ⟨[Characters.tokenAt {} 'a',
      Characters.tokenAt { offset := 1, col := 1 } 'b'], ?_, fun j hj _ => ?_⟩⟩
  · simp [inputsBefore, inputsBehind, hzero, htwo, htokens]
  · rw [hindex] at hj
    rcases Nat.lt_succ_iff_lt_or_eq.mp hj with hfirst | rfl
    · obtain rfl := Nat.lt_one_iff.mp hfirst
      simp [inputsBefore, inputsBehind]
    · simp [inputsBefore, inputsBehind, hzero, htwo, htokens]

/-- **A column of another branch.** Two letters are taken and saved, and another letter is taken from
the beginning. With the bookmark the parser is behind the two letters again, but it is rewound to the
other letter. -/
theorem rewind_forked :
    ∃ (inputs : Nat → Option (List Token)) (saved : List (Bookmark Position × Option (List Token)))
      (p q : Parser characters.toLexer),
      p.Retraced forked inputs saved ∧ p.current = 2 ∧
        inputs 2 = some [Characters.tokenAt {} 'a',
          Characters.tokenAt { offset := 1, col := 1 } 'b'] ∧
        p.rewind 1 = .ok q ∧ q.results = [.list [.token (Characters.tokenAt {} 'c')]] ∧
          ¬p.OneHistory forked inputs := by
  have hrun : (start characters.toLexer forked true 20).any (fun fresh =>
      (fresh.feed 20 "ab").any fun fed => (fed.parser.rewind 0).toOption.any fun back =>
        (back.feed 20 "c").any fun other =>
          ((other.parser.restore fed.parser.save).rewind 1).toOption.any fun q =>
            fresh.current == 0 && fed.parser.current == 2 && back.current == 0 &&
              other.parser.current == 1 && fresh.tokensOf "ab" ==
                [Characters.tokenAt {} 'a', Characters.tokenAt { offset := 1, col := 1 } 'b'] &&
              back.tokensOf "c" == [Characters.tokenAt {} 'c'] &&
              q.results == [.list [.token (Characters.tokenAt {} 'c')]]) = true := by
    decide +kernel
  obtain ⟨fresh, hfresh, hrun⟩ := (Option.any_eq_true _ _).mp hrun
  obtain ⟨fed, hfed, hrun⟩ := (Option.any_eq_true _ _).mp hrun
  obtain ⟨back, hback, hrun⟩ := exists_of_any_rewind hrun
  obtain ⟨other, hother, hrun⟩ := (Option.any_eq_true _ _).mp hrun
  obtain ⟨q, hq, hresult⟩ := exists_of_any_rewind hrun
  simp only [Bool.and_eq_true, beq_iff_eq] at hresult
  obtain ⟨⟨⟨⟨⟨⟨hzero, htwo⟩, hbegin⟩, hone⟩, htokens⟩, htoken⟩, hresults⟩ := hresult
  have hindex : fed.parser.save.index = 2 := htwo
  -- the tokens that led to the columns of both branches, and to the bookmark
  obtain ⟨inputs, saved, hretraced, hlast, hother⟩ : ∃ inputs saved,
      (other.parser.restore fed.parser.save).Retraced forked inputs saved ∧
        inputs 2 = some [Characters.tokenAt {} 'a',
          Characters.tokenAt { offset := 1, col := 1 } 'b'] ∧
        inputs 1 = some [Characters.tokenAt {} 'c'] :=
    ⟨_, _, ((((retraced_of_start hfresh).feed hfed).save.rewind (Nat.zero_le _) hback).feed
      hother).restore (List.mem_singleton_self _),
      by simp [inputsBefore, inputsBehind, hindex, hzero, htwo, htokens],
      by simp [inputsBefore, inputsBehind, hindex, hbegin, hone, htoken]⟩
  refine ⟨inputs, saved, _, q, hretraced, htwo, hlast, hq, hresults, fun hhistory => ?_⟩
  obtain ⟨input, hinput, hall⟩ := hretraced.traced.1.oneHistory_iff.mp hhistory
  have hcurrent : (other.parser.restore fed.parser.save).current = 2 := htwo
  rw [hcurrent] at hinput hall
  obtain rfl := Option.some.inj (hlast.symm.trans hinput)
  obtain ⟨-, b, hb, -⟩ := rewind_eq_ok_iff.mp hq
  have hfirst := hall 1 (by decide) (isSome_column?_iff.mpr ⟨b, hb⟩)
  rw [hother] at hfirst
  exact absurd hfirst (by decide)

end Parser

end Earley
