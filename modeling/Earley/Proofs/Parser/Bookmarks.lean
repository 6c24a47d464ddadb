import Earley.Proofs.Parser.Table

/-!
# What bookmarks carry

A parser goes on from the charts of its bookmarks. There are three ways for a chart to come up: it is
closed before any input, or behind a further token of a chart, or it gets an empty column behind
refused input. What holds of all these holds of every chart that a parser ever goes on from, and of
every column that it shows.

## Main definitions

* `Parser.Carries`: something holds of all charts that a parser may go on from
* `Parser.Arises`: the parsers that arise at all, bookmarks of other grammars included

## Main results

* `Parser.Carries.column?`: it holds of the columns of the parser then
* `Parser.Carries.feed`, `Parser.Carries.restore`, `Parser.Carries.rewind`: what it takes to hold on
* `Parser.Carries.step`: it holds on in every step
* `Parser.Session.carries`: what holds of charts as they come up holds of all charts of a session
-/

namespace Earley.Parser

variable {Chunk Mark : Type} {lexer : Lexer Chunk Mark} {P : Chart → Prop} {fuel i j : Nat}
  {chunk : Chunk} {chart : Chart} {b : Bookmark Mark} {p q : Parser lexer} {fed : Fed lexer}
  {operation : Operation Chunk Mark}

/-- **Something holds of all charts** that a parser may go on from. -/
structure Carries (P : Chart → Prop) (p : Parser lexer) : Prop where
  head : P p.head.chart
  past : ∀ b, some b ∈ p.past → P b.chart

/-- It holds of every column that may be gone back to, the empty one behind refused input
included. -/
theorem Carries.of_bookmark? (h : p.Carries P) (hblank : ∀ chart, P chart → P chart.blank)
    (hb : p.bookmark? j = some b) : P b.chart := by
  rcases bookmark?_eq_some_iff.mp hb with hpast | ⟨-, rfl⟩ | ⟨-, -, rfl⟩
  · exact h.past b (Array.mem_of_getElem? hpast)
  · exact h.head
  · exact hblank _ h.head

theorem Carries.column? (h : p.Carries P) (hblank : ∀ chart, P chart → P chart.blank)
    (hchart : p.column? j = some chart) : P chart := by
  rw [column?_eq_map] at hchart
  obtain ⟨b, hb, rfl⟩ := Option.map_eq_some_iff.mp hchart
  exact h.of_bookmark? hblank hb

/-- It depends on nothing but the columns that were reached. -/
theorem Carries.congr (h : p.Carries P) (hpast : q.past = p.past) (hhead : q.head = p.head) :
    q.Carries P :=
  ⟨hhead ▸ h.head, hpast ▸ h.past⟩

theorem Carries.forget (h : p.Carries P) : p.forget.Carries P where
  head := by
    rw [head_forget]
    exact h.head
  past := by
    intro b hb
    -- what is given up is not there any more
    obtain ⟨j, hj⟩ := Array.mem_iff_getElem?.mp hb
    exact h.past b (Array.mem_of_getElem? (getElem?_past_forget hj))

theorem Carries.extend (h : p.Carries P) (hchart : P chart) (mark : Mark) :
    (p.extend chart mark).Carries P where
  head := hchart
  past := by
    intro b hb
    rcases Array.mem_push.mp hb with hmem | hlast
    · exact h.past b hmem
    · obtain rfl := Option.some.inj hlast
      exact h.head

/-- Feeding adds columns behind further tokens only. -/
theorem Carries.feed (h : p.Carries P)
    (hshift : ∀ (chart next : Chart) (t : Token), P chart →
      chart.shift p.grammar fuel t = some next → P next)
    (hfeed : p.feed fuel chunk = some fed) : fed.parser.Carries P := by
  have hfed : fed.parser.grammar = p.grammar ∧ fed.parser.Carries P := by
    refine feed_preserves (P := fun q => q.grammar = p.grammar ∧ q.Carries P) ?_ ?_ ?_ ⟨rfl, h⟩ hfeed
    · rintro q q' hgrammar - hpast hhead ⟨hq, hcarries⟩
      exact ⟨hgrammar.trans hq, hcarries.congr hpast hhead⟩
    · rintro q ⟨hq, hcarries⟩
      exact ⟨(grammar_forget q).trans hq, hcarries.forget⟩
    · rintro q token chart hchart ⟨hq, hcarries⟩
      rw [hq] at hchart
      exact ⟨hq, hcarries.extend (hshift _ _ _ hcarries.head hchart) token.2⟩
  exact hfed.2

/-- Restoring brings in a bookmark that may come from elsewhere. -/
theorem Carries.restore (h : p.Carries P) (hblank : ∀ chart, P chart → P chart.blank)
    (hb : P b.chart) : (p.restore b).Carries P where
  head := hb
  past := by
    intro c hc
    obtain ⟨j, hj⟩ := Array.mem_iff_getElem?.mp hc
    rw [getElem?_past_restore] at hj
    split at hj
    · exact h.of_bookmark? hblank (Option.some.inj hj)
    · exact nomatch hj

theorem Carries.rewind (h : p.Carries P) (hblank : ∀ chart, P chart → P chart.blank)
    (hrewind : p.rewind i = .ok q) : q.Carries P := by
  obtain ⟨-, b, hb, rfl⟩ := rewind_eq_ok_iff.mp hrewind
  exact h.restore hblank (h.of_bookmark? hblank hb)

/-- A fresh parser has the chart before any input. -/
theorem carries_of_start {g : Grammar} {keepHistory : Bool}
    (hinitial : ∀ chart, Chart.initial g fuel = some chart → P chart)
    (h : start lexer g keepHistory fuel = some p) : p.Carries P := by
  obtain ⟨chart, hchart, rfl⟩ := Option.map_eq_some_iff.mp h
  exact ⟨hinitial chart hchart, by simp [refresh]⟩

/-! ## Sessions -/

/-- **A step keeps what holds of charts as they come up**, and of the bookmark that is restored. -/
theorem Carries.step (h : p.Carries P)
    (hshift : ∀ (fuel : Nat) (chart next : Chart) (t : Token), P chart →
      chart.shift p.grammar fuel t = some next → P next)
    (hblank : ∀ chart, P chart → P chart.blank)
    (hrestore : ∀ b, operation = .restore b → P b.chart) (hstep : p.Step operation fed) :
    fed.parser.Carries P := by
  cases hstep with
  | @feed fuel _ _ _ hfeed => exact h.feed (hshift fuel) hfeed
  | rewind hrewind => exact h.rewind hblank hrewind
  | save => exact h
  | restore b => exact h.restore hblank (hrestore b rfl)

/-- **What holds of charts as they come up** holds of all charts of a session with its own
bookmarks, whichever grammars there are. -/
theorem Session.carries {begins : Parser lexer → Prop} {G : Grammar → Prop}
    (h : Session (.free begins) () p)
    (hbegins : ∀ p, begins p → ∃ g keepHistory fuel, G g ∧
      Parser.start lexer g keepHistory fuel = some p)
    (hinitial : ∀ g fuel chart, G g → Chart.initial g fuel = some chart → P chart)
    (hshift : ∀ g fuel chart next t, G g → P chart → Chart.shift g fuel chart t = some next →
      P next)
    (hblank : ∀ chart, P chart → P chart.blank) : G p.grammar ∧ p.Carries P := by
  refine Session.invariant (I := fun _ p => G p.grammar ∧ p.Carries P) h ?_ ?_ ?_
  · intro p hp
    obtain ⟨g, keepHistory, fuel, hg, hstart⟩ := hbegins p hp
    refine ⟨?_, carries_of_start (fun chart => hinitial g fuel chart hg) hstart⟩
    rw [(fresh_of_start hstart).1]
    exact hg
  · rintro _ _ p operation fed ⟨hg, hcarries⟩ hstep hallowed
    refine ⟨?_, hcarries.step (fun fuel chart next t => hshift _ fuel chart next t hg) hblank
      (fun b hb => ?_) hstep⟩
    · rw [hstep.frame.1]
      exact hg
    · -- a bookmark that comes from nowhere is not restored
      subst hb
      exact False.elim hallowed
  · rintro _ _ _ p saved ⟨hg, hcarries⟩ ⟨-, hsaved⟩ -
    exact ⟨hg, hcarries.restore hblank hsaved.head⟩

/-- **The parsers that arise at all**: fresh ones, and what feeding, rewinding and restoring make of
them. A bookmark may be restored in a parser for another grammar. -/
def Arises (p : Parser lexer) : Prop :=
  Session (.free fun fresh => ∃ g keepHistory fuel, start lexer g keepHistory fuel = some fresh)
    () p

/-- **What holds of charts as they come up**, whatever the grammar is, holds of all charts of
parsers. -/
theorem Arises.carries (h : p.Arises)
    (hinitial : ∀ (g : Grammar) (fuel : Nat) (chart : Chart),
      Chart.initial g fuel = some chart → P chart)
    (hshift : ∀ (g : Grammar) (fuel : Nat) (chart next : Chart) (t : Token), P chart →
      chart.shift g fuel t = some next → P next)
    (hblank : ∀ chart, P chart → P chart.blank) : p.Carries P := by
  refine (Session.carries (G := fun _ => True) h ?_ ?_ ?_ hblank).2
  · rintro p ⟨g, keepHistory, fuel, hstart⟩
    exact ⟨g, keepHistory, fuel, trivial, hstart⟩
  · exact fun g fuel chart _ => hinitial g fuel chart
  · exact fun g fuel chart next t _ => hshift g fuel chart next t

end Earley.Parser
