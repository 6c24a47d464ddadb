import Earley.Proofs.Chart.Inputs
import Earley.Proofs.Chart.LaterColumns
import Earley.Proofs.Parser.Bookmarks
import Earley.Proofs.Parser.Recognition

/-!
# Sessions

A session begins with a fresh parser and feeds, rewinds, saves and restores as it likes. All that a
parser has to go on from, then or later, are charts behind some input, and the empty columns behind
refused input, which a rewind can come to: no item waits for a token there, so the next token is
refused at once. In a grammar without cycles over input, every chunk has an outcome therefore.

## Main definitions

* `Parser.Reached`: the parsers that a session comes to
* `Chart.Held`: a chart that a bookmark may have

## Main results

* `Parser.Reached.carries`: what holds of charts as they come up holds of all charts of a session
* `Parser.Reached.held`: which charts a parser of a session goes on from
* `Parser.Reached.placed`: the columns of a session are in their places
* `Parser.exists_feed`: without cycles over input, every chunk has an outcome
-/

namespace Earley

variable {Chunk Mark : Type} {lexer : Lexer Chunk Mark} {g : Grammar} {chart next : Chart}
  {fuel : Nat}

/-! ## Charts -/

/-- **A chart that a bookmark may have**: one behind some input, or one that ends with an empty
column. -/
def Chart.Held (g : Grammar) (chart : Chart) : Prop :=
  (∃ input, Chart.Reads g input chart) ∨ chart.head = {}

namespace Chart

theorem Held.shift {t : Token} (h : Held g chart) (hshift : chart.shift g fuel t = some next) :
    Held g next := by
  rcases h with ⟨input, hreads⟩ | hempty
  · exact .inl ⟨input ++ [t], hreads.shift hshift⟩
  · rw [shift_of_head_eq hempty] at hshift
    obtain rfl := Option.some.inj hshift
    exact .inr rfl

theorem Held.exists_shift (hg : g.CycleFree) (h : Held g chart) (t : Token) :
    ∃ next bound, ∀ fuel, bound ≤ fuel → chart.shift g fuel t = some next := by
  rcases h with ⟨input, hreads⟩ | hempty
  · exact hreads.exists_shift hg t
  · exact ⟨chart.blank, 0, fun fuel _ => shift_of_head_eq hempty fuel t⟩

end Chart

/-! ## Parsers -/

namespace Parser

/-- **The parsers that a session comes to**: fresh ones, and what feeding, rewinding and restoring
make of them. A bookmark may be restored in another parser of the session. -/
def Reached (g : Grammar) (p : Parser lexer) : Prop :=
  Session (.free fun fresh => ∃ keepHistory fuel, start lexer g keepHistory fuel = some fresh) () p

variable {p : Parser lexer} {tokens : List (Token × Mark)} {halt : Halt lexer} {chunk : Chunk}
  {fed : Fed lexer}

theorem reached_of_start {keepHistory : Bool} (h : start lexer g keepHistory fuel = some p) :
    p.Reached g :=
  .start ⟨keepHistory, fuel, h⟩

theorem Reached.feed (hp : p.Reached g) (h : p.feed fuel chunk = some fed) :
    fed.parser.Reached g :=
  Session.unlogged hp (.feed h) trivial

/-- **What holds of charts as they come up** in a grammar holds of all charts of a session. -/
theorem Reached.carries {P : Chart → Prop} (h : p.Reached g)
    (hinitial : ∀ (fuel : Nat) (chart : Chart), Chart.initial g fuel = some chart → P chart)
    (hshift : ∀ (fuel : Nat) (chart next : Chart) (t : Token), P chart →
      chart.shift g fuel t = some next → P next)
    (hblank : ∀ chart, P chart → P chart.blank) : p.grammar = g ∧ p.Carries P := by
  refine Session.carries (G := fun g' => g' = g) h ?_ ?_ ?_ hblank
  · rintro p ⟨keepHistory, fuel, hstart⟩
    exact ⟨g, keepHistory, fuel, rfl, hstart⟩
  · rintro g' fuel chart rfl
    exact hinitial fuel chart
  · rintro g' fuel chart next t rfl
    exact hshift fuel chart next t

/-- **Which charts a parser of a session goes on from**: charts behind some input, or ones that end
with an empty column. -/
theorem Reached.held (h : p.Reached g) : p.grammar = g ∧ p.Carries (Chart.Held g) :=
  h.carries (fun _ _ hchart => .inl ⟨[], .initial hchart⟩)
    (fun _ _ _ _ hheld hchart => hheld.shift hchart) (fun _ _ => .inr rfl)

/-- **In a session the columns are in their places.** -/
theorem Reached.placed (h : p.Reached g) : p.Placed := by
  refine Session.placed h ?_
  rintro fresh ⟨keepHistory, fuel, hstart⟩
  exact placed_of_start hstart

/-! ## Outcomes -/

/-- A run over tokens comes to a halt. -/
theorem exists_run (hg : g.CycleFree) (tokens : List (Token × Mark)) (hgrammar : p.grammar = g)
    (hheld : Chart.Held g p.head.chart) :
    ∃ halt bound, ∀ fuel, bound ≤ fuel → run fuel tokens p = some halt := by
  induction tokens generalizing p with
  | nil => exact ⟨{ parser := p }, 0, fun _ _ => rfl⟩
  | cons token rest ih =>
    -- enough visits for the first column, and for the columns behind it
    obtain ⟨chart, first, hshift⟩ := hheld.exists_shift hg token.1
    have hchart : ∀ fuel, first ≤ fuel →
        p.head.chart.shift p.grammar fuel token.1 = some chart := by
      rw [hgrammar]
      exact hshift
    by_cases hempty : chart.head.isEmpty = true
    · exact ⟨_, first, fun fuel hfuel => run_cons_of_refused (hchart fuel hfuel) hempty⟩
    · have hfull : chart.head.isEmpty = false := Bool.eq_false_iff.mpr hempty
      obtain ⟨halt, later, hrun⟩ := ih (p := p.forget.extend chart token.2)
        ((grammar_forget p).trans hgrammar) (hheld.shift (hshift first (Nat.le_refl first)))
      refine ⟨halt, max first later, fun fuel hfuel => ?_⟩
      rw [run_cons_of_taken (hchart fuel (by omega)) hfull]
      exact hrun fuel (by omega)

/-- **Every chunk has an outcome**, if the grammar has no cycles over input: wherever a session has
come to, some number of visits closes the column behind any token, and some number of visits closes
all columns of a chunk. -/
theorem exists_feed (hg : g.CycleFree) (hp : p.Reached g) :
    (∀ t, ∃ next bound, ∀ fuel, bound ≤ fuel → p.head.chart.shift g fuel t = some next) ∧
      ∀ chunk, ∃ fed bound, ∀ fuel, bound ≤ fuel → p.feed fuel chunk = some fed := by
  obtain ⟨hgrammar, hcarries⟩ := hp.held
  refine ⟨fun t => hcarries.head.exists_shift hg t, fun chunk => ?_⟩
  obtain ⟨halt, bound, hrun⟩ := exists_run (p := p.unblock) hg
    (lexer.read p.head.resume chunk).tokens hgrammar hcarries.head
  refine ⟨halt.conclude chunk p.head.resume (lexer.read p.head.resume chunk), bound, ?_⟩
  intro fuel hfuel
  rw [feed_eq_map, hrun fuel hfuel, Option.map_some]

/-- What a padding derives are paddings again. -/
theorem derives_padding {form : List Symbol} (h : padded.Derives [.nonterminal "N"] form) :
    ∀ s ∈ form, s = .nonterminal "N" := by
  induction h with
  | refl => simp
  | tail _ hstep ih =>
    obtain ⟨front, name, back, rule, hrule, rfl, rfl⟩ := hstep
    obtain rfl : name = "N" := Symbol.nonterminal.inj (ih (.nonterminal name) (by simp))
    have hsymbols : ∀ s ∈ rule.symbols, s = .nonterminal "N" := by
      have hrule' : rule = { name := "N", symbols := [] } ∨
          rule = { name := "N", symbols := [.nonterminal "N", .nonterminal "N"] } := by
        simpa [Grammar.rulesFor, padded] using hrule
      rcases hrule' with rfl | rfl <;> simp
    intro s hs
    simp only [List.mem_append] at hs
    rcases hs with (hfront | hrule) | hback
    · exact ih s (by simp [hfront])
    · exact hsymbols s hrule
    · exact ih s (by simp [hback])

/-- A padding covers itself, but it derives no input. -/
theorem cycleFree_padded : padded.CycleFree := by
  have hbarren : ¬padded.Fertile "N" := by
    rintro ⟨form, hne, hterminal, hderives⟩
    obtain ⟨s, hs⟩ := List.exists_mem_of_ne_nil form hne
    have hpadding := hterminal s hs
    rw [derives_padding hderives s hs] at hpadding
    cases hpadding
  intro name hfertile hcycle
  obtain ⟨inner, ⟨rule, hrule, front, back, hsymbols, hempty⟩, -⟩ :=
    Relation.TransGen.head'_iff.mp hcycle
  obtain ⟨hmem, hname⟩ := List.mem_filter.mp hrule
  obtain rfl : rule.name = name := by simpa using hname
  simp only [padded, List.mem_cons, List.not_mem_nil, or_false] at hmem
  rcases hmem with rfl | rfl | rfl
  · -- the letter of a sentence is not empty
    have hletter : Symbol.literal "a" false ∈ front ++ back := by
      have hall : Symbol.literal "a" false ∈ front ++ .nonterminal inner :: back := by
        rw [← hsymbols]
        simp
      simpa using hall
    obtain ⟨name, hname, -⟩ := hempty _ hletter
    cases hname
  · exact hbarren hfertile
  · exact hbarren hfertile

/-- The paddings before the first letter cover themselves. The column behind any token closes all
the same, and every chunk has an outcome, at the beginning and behind the letter. -/
theorem exists_feed_padded :
    ∃ (p : Parser prepared) (fed : Fed prepared),
      p.Reached padded ∧ p.current = 0 ∧ p.head.chart.head.isEmpty = false ∧
        p.feed 20 [.ok { value := "a" }] = some fed ∧ fed.error = none ∧ fed.parser.current = 1 ∧
        (∀ t, ∃ next bound, ∀ fuel, bound ≤ fuel → p.head.chart.shift padded fuel t = some next) ∧
        (∀ chunk, ∃ fed bound, ∀ fuel, bound ≤ fuel → p.feed fuel chunk = some fed) ∧
          ∀ chunk, ∃ next bound, ∀ fuel, bound ≤ fuel → fed.parser.feed fuel chunk = some next := by
  have hrun : (start prepared padded false 20).any (fun p =>
      p.current == 0 && !p.head.chart.head.isEmpty &&
        (p.feed 20 [.ok { value := "a" }]).any fun fed =>
          fed.error.isNone && fed.parser.current == 1) = true := by decide
  obtain ⟨p, hp, hrun⟩ := (Option.any_eq_true _ _).mp hrun
  obtain ⟨hfresh, hrun⟩ := (Bool.and_eq_true _ _).mp hrun
  obtain ⟨fed, hfeed, hresult⟩ := (Option.any_eq_true _ _).mp hrun
  simp only [Bool.and_eq_true, beq_iff_eq, Bool.not_eq_true'] at hfresh
  simp only [Bool.and_eq_true, beq_iff_eq, Option.isNone_iff_eq_none] at hresult
  have hreached : p.Reached padded := reached_of_start hp
  obtain ⟨hshift, houtcome⟩ := exists_feed cycleFree_padded hreached
  have hlater := (exists_feed cycleFree_padded (hreached.feed hfeed)).2
  exact ⟨p, fed, hreached, hfresh.1, hfresh.2, hfeed, hresult.1, hresult.2, hshift, houtcome,
    hlater⟩

end Parser

end Earley
