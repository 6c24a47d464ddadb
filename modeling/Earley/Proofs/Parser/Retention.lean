import Earley.Lexer.Characters
import Earley.Proofs.Parser.Recognition
import Earley.Proofs.Parser.Table

/-!
# The columns that stay without history

A parser that keeps no history gives up its columns but for the last two: when a token comes, the
column before the last one goes, and if the token is taken, the new column takes its place. If it is
refused, that column is gone all the same, and only the last one is left, until another token is
taken. The empty column behind refused input stands in the table for as long as no further chunk
comes.

## Main definitions

* `Fed.stalls`: whether a token was refused since the last one that was taken
* `Parser.Trimmed`: all but the latest of the earlier columns are given up
* `Parser.streaming`, `Parser.Streamed`: a parser that keeps no history, fed with chunks

## Main results

* `Parser.Trimmed.run`: what a run over tokens leaves of the earlier columns
* `Parser.isSome_column?_streamed`: which columns a parser has that keeps no history
-/

namespace Earley

variable {Chunk Mark : Type} {lexer : Lexer Chunk Mark} {g : Grammar} {fuel j : Nat}
  {tokens : List (Token × Mark)} {chunk : Chunk} {origin : Mark} {reading : Reading Mark}
  {chart : Chart} {p : Parser lexer} {halt : Halt lexer} {fed : Fed lexer}
  {refusal : Option InputError} {stalled : Bool}

/-- **Whether a token was refused since the last one that was taken**, after a chunk was fed to a
parser of which this is known. -/
def Fed.stalls (fed : Fed lexer) (before : Parser lexer) (stalled : Bool) : Bool :=
  match fed.error with
  | some (.unexpected ..) => true
  | _ => stalled && fed.parser.current == before.current

/-- The halt tells whether a token was refused. -/
theorem Halt.stalls_conclude :
    (halt.conclude chunk origin reading).stalls p stalled =
      (halt.refused.isSome || (stalled && halt.parser.current == p.current)) := by
  rw [Fed.stalls, Parser.current_conclude]
  unfold Halt.conclude
  cases halt.refused with
  | some token => simp [Parser.refuse]
  | none =>
    cases reading.error with
    | none => simp
    | some e => cases htoken : e.token <;> simp [Parser.refuseUnreadable, htoken]

namespace Parser

/-- **All but the latest of the earlier columns are given up**, and that one too, where a token was
refused since. -/
structure Trimmed (stalled : Bool) (p : Parser lexer) : Prop where
  keepHistory : p.keepHistory = false
  placed : p.Placed
  exists_past_iff : ∀ j, (∃ b, p.past[j]? = some (some b)) ↔ j + 1 = p.current ∧ stalled = false

theorem trimmed_of_start (h : start lexer g false fuel = some p) : p.Trimmed false := by
  obtain ⟨-, hkeep, hpast, -, hcurrent, -⟩ := fresh_of_start h
  exact ⟨hkeep, placed_of_start h, fun j => by simp [hpast, hcurrent]⟩

/-- When a token comes, no earlier column is left. -/
theorem Trimmed.forget (h : p.Trimmed stalled) : p.forget.Trimmed true where
  keepHistory := (keepHistory_forget p).trans h.keepHistory
  placed := h.placed.forget
  exists_past_iff := by
    intro j
    simp only [Bool.true_eq_false, and_false, iff_false, not_exists]
    intro b hb
    -- the only one that there was is the one that is given up
    have hlast := ((h.exists_past_iff j).mp ⟨b, getElem?_past_forget hb⟩).1
    have hplace : p.past.size - 1 = j := by rw [h.placed.size_past]; omega
    rw [Parser.forget, if_neg (by simp [h.keepHistory]), hplace, Array.getElem?_setIfInBounds] at hb
    simp at hb

/-- When it is taken, the column that was the last one stays. -/
theorem Trimmed.extend (h : p.Trimmed true) (hindex : chart.index = p.current + 1) (mark : Mark) :
    (p.extend chart mark).Trimmed false where
  keepHistory := h.keepHistory
  placed := h.placed.extend hindex mark
  exists_past_iff := by
    intro j
    have hcurrent : (p.extend chart mark).current = p.current + 1 := hindex
    have hpast : (p.extend chart mark).past = p.past.push (some p.head) := rfl
    have hnone : ∀ b, p.past[j]? ≠ some (some b) := fun b hb =>
      absurd ((h.exists_past_iff j).mp ⟨b, hb⟩).2 (by simp)
    simp only [hcurrent, hpast, Array.getElem?_push, h.placed.size_past]
    split
    · next hj => simp [hj]
    · next hj => simp [hnone, hj]

/-- **What a run over tokens leaves of the earlier columns**: none, if a token is refused, and else
the latest, unless no token came and it was not there before. -/
theorem Trimmed.run (h : p.Trimmed stalled) (hrun : run fuel tokens p = some halt) :
    halt.parser.Trimmed
      (halt.refused.isSome || (stalled && halt.parser.current == p.current)) := by
  induction tokens generalizing p stalled with
  | nil =>
    obtain rfl := Option.some.inj hrun
    simpa using h
  | cons token rest ih =>
    obtain ⟨chart, hshift, ⟨-, rfl⟩ | ⟨-, hrest⟩⟩ := run_cons_cases hrun
    · exact h.forget
    · have hindex : chart.index = p.forget.current + 1 := by
        rw [current_forget]
        exact Chart.index_shift hshift
      -- the first token is taken, so the columns are more than before
      have hle : chart.index ≤ halt.parser.current := current_le_run hrest
      have hmore : (halt.parser.current == p.current) = false := by
        rw [current_forget] at hindex
        simp only [beq_eq_false_iff_ne]
        omega
      simpa [hmore] using ih (h.forget.extend hindex token.2) hrest

theorem Trimmed.feed (h : p.Trimmed stalled) (hfeed : p.feed fuel chunk = some fed) :
    fed.parser.Trimmed (fed.stalls p stalled) := by
  have hplaced := h.placed.feed hfeed
  rw [feed_eq_map] at hfeed
  obtain ⟨halt, hrun, rfl⟩ := Option.map_eq_some_iff.mp hfeed
  have hopen : p.unblock.Trimmed stalled :=
    ⟨h.keepHistory, h.placed.congr rfl rfl, h.exists_past_iff⟩
  obtain ⟨hkeep, -, hpast⟩ := hopen.run hrun
  rw [Halt.stalls_conclude]
  refine ⟨by rwa [keepHistory_conclude], hplaced, fun j => ?_⟩
  rw [past_conclude, current_conclude]
  exact hpast j

/-! ## Chunks only -/

/-- Sessions of parsers that keep no history and are fed only, with a log of the error of the latest
chunk, and of whether a token was refused since the last one that was taken. -/
def streaming (g : Grammar) : Terms lexer (Option InputError × Bool) :=
  .feeding (fun p => ∃ fuel, start lexer g false fuel = some p) (none, false)
    fun log p _ fed next => next = (fed.error, fed.stalls p log.2)

/-- **A parser that keeps no history, fed with chunks**, with the error of the latest one, and
whether a token was refused since the last one that was taken. -/
def Streamed (g : Grammar) (refusal : Option InputError) (stalled : Bool) (p : Parser lexer) :
    Prop :=
  Session (streaming g) (refusal, stalled) p

theorem Streamed.feed (hp : p.Streamed g refusal stalled) (h : p.feed fuel chunk = some fed) :
    fed.parser.Streamed g fed.error (fed.stalls p stalled) :=
  .step hp (.feed h) rfl

theorem Streamed.trimmed (h : p.Streamed g refusal stalled) :
    p.Trimmed stalled ∧ p.blocked = refusal.isSome := by
  refine Session.feeding_induction
    (I := fun log p => p.Trimmed log.2 ∧ p.blocked = log.1.isSome) h ?_ ?_
  · rintro p ⟨fuel, h⟩
    exact ⟨trimmed_of_start h, (fresh_of_start h).2.2.2.1⟩
  · rintro log next fuel p chunk fed - ⟨htrimmed, -⟩ h hnext
    obtain rfl := hnext
    exact ⟨htrimmed.feed h, blocked_feed h⟩

/-- **Which columns a parser has that keeps no history**: the last one; the one before it, unless a
token was refused since the last one that was taken; and the empty one behind a refused chunk. These
are the last two columns exactly if neither the latest chunk was refused nor any token since the
last one that was taken, or there is but one column. -/
theorem isSome_column?_streamed (hp : p.Streamed g refusal stalled) :
    (∀ j, (p.column? j).isSome = true ↔ j = p.current ∨ (j + 1 = p.current ∧ stalled = false) ∨
        (refusal ≠ none ∧ j = p.current + 1)) ∧
      ((∀ j, (p.column? j).isSome = true ↔ j ≤ p.current ∧ p.current ≤ j + 1) ↔
        refusal = none ∧ (stalled = false ∨ p.current = 0)) ∧
      ∀ j chart, p.column? j = some chart → chart.index = j := by
  obtain ⟨htrimmed, hblocked⟩ := hp.trimmed
  have hrefused : p.blocked = true ↔ refusal ≠ none := by rw [hblocked, Option.isSome_iff_ne_none]
  have hcolumns : ∀ j, (p.column? j).isSome = true ↔ j = p.current ∨
      (j + 1 = p.current ∧ stalled = false) ∨ (refusal ≠ none ∧ j = p.current + 1) := by
    intro j
    have hcolumn : p.column? j = (p.bookmark? j).map Bookmark.chart := rfl
    rw [hcolumn, Option.isSome_map, Option.isSome_iff_exists, ← htrimmed.exists_past_iff, ← hrefused]
    simp only [htrimmed.placed.bookmark?_eq_some_iff, exists_or, exists_and_left, exists_eq, and_true]
    tauto
  refine ⟨hcolumns, ⟨fun hlast => ⟨?_, ?_⟩, fun ⟨hnone, hkept⟩ j => ?_⟩, ?_⟩
  · by_contra hne
    have hnext := (hlast (p.current + 1)).mp ((hcolumns _).mpr (.inr (.inr ⟨hne, rfl⟩)))
    omega
  · by_contra hlost
    obtain ⟨hstalled, hmore⟩ := not_or.mp hlost
    -- the column before the last one is there after all
    rcases (hcolumns (p.current - 1)).mp ((hlast (p.current - 1)).mpr (by omega)) with
      hsame | ⟨-, hkept⟩ | ⟨-, hnext⟩
    · omega
    · exact hstalled hkept
    · omega
  · rw [hcolumns]
    rcases hkept with hkept | hfirst
    · simp only [hkept, hnone, ne_eq, not_true_eq_false, and_true, false_and, or_false]
      omega
    · simp only [hfirst, hnone, ne_eq, not_true_eq_false, false_and, or_false]
      omega
  · intro j chart hchart
    obtain ⟨b, hb, rfl⟩ := Option.map_eq_some_iff.mp hchart
    exact htrimmed.placed.index_of_bookmark? hb

/-- Behind one letter there are columns 0 and 1. A further letter that is refused takes column 0 and
leaves an empty column 2. -/
theorem isSome_column?_padded :
    ∃ (p : Parser characters.toLexer) (fed : Fed characters.toLexer) (e : InputError),
      p.Streamed padded none false ∧ p.current = 1 ∧
        (∀ j, (p.column? j).isSome = true ↔ j ≤ 1 ∧ 1 ≤ j + 1) ∧
          p.feed 20 "b" = some fed ∧ fed.error = some e ∧ fed.parser.current = 1 ∧
            ∀ j, (fed.parser.column? j).isSome = true ↔ j = 1 ∨ j = 2 := by
  have hrun : (start characters.toLexer padded false 20).any (fun fresh =>
      (fresh.feed 20 "a").any fun first =>
        first.error.isNone && !first.stalls fresh false && first.parser.current == 1 &&
          (first.parser.feed 20 "b").any fun fed => fed.error.isSome &&
            fed.stalls first.parser false && fed.parser.current == 1) = true := by decide +kernel
  obtain ⟨fresh, hfresh, hrun⟩ := (Option.any_eq_true _ _).mp hrun
  obtain ⟨first, hfirst, hrun⟩ := (Option.any_eq_true _ _).mp hrun
  obtain ⟨hsound, hrun⟩ := (Bool.and_eq_true _ _).mp hrun
  obtain ⟨fed, hfed, hresult⟩ := (Option.any_eq_true _ _).mp hrun
  simp only [Bool.and_eq_true, Option.isNone_iff_eq_none, Bool.not_eq_true', beq_iff_eq] at hsound
  simp only [Bool.and_eq_true, beq_iff_eq] at hresult
  obtain ⟨⟨hnone, hfull⟩, hone⟩ := hsound
  obtain ⟨⟨hsome, hstalled⟩, hstay⟩ := hresult
  obtain ⟨e, he⟩ := Option.isSome_iff_exists.mp hsome
  have hstreamed : first.parser.Streamed padded none false := by
    simpa only [hnone, hfull] using Streamed.feed (.start ⟨20, hfresh⟩) hfirst
  have hrefused : fed.parser.Streamed padded (some e) true := by
    simpa only [he, hstalled] using Streamed.feed hstreamed hfed
  refine ⟨first.parser, fed, e, hstreamed, hone, ?_, hfed, he, hstay, fun j => ?_⟩
  · simpa only [hone] using (isSome_column?_streamed hstreamed).2.1.mpr ⟨rfl, .inl rfl⟩
  · simpa [hstay] using (isSome_column?_streamed hrefused).1 j

/-- A chunk that is refused at its first token does not leave the columns that it found. -/
theorem column?_behind_refused :
    ∃ (p : Parser characters.toLexer) (fed : Fed characters.toLexer),
      p.Streamed padded none false ∧ p.feed 20 "b" = some fed ∧ p.current = 1 ∧
        fed.parser.current = 1 ∧ (p.column? 0).isSome = true ∧ (p.column? 2).isSome = false ∧
          (fed.parser.column? 0).isSome = false ∧ (fed.parser.column? 2).isSome = true := by
  have hrun : (start characters.toLexer padded false 20).any (fun fresh =>
      (fresh.feed 20 "a").any fun first => first.error.isNone && !first.stalls fresh false &&
        (first.parser.feed 20 "b").any fun fed =>
          first.parser.current == 1 && fed.parser.current == 1 &&
            (first.parser.column? 0).isSome && !(first.parser.column? 2).isSome &&
              !(fed.parser.column? 0).isSome && (fed.parser.column? 2).isSome) = true := by
    decide +kernel
  obtain ⟨fresh, hfresh, hrun⟩ := (Option.any_eq_true _ _).mp hrun
  obtain ⟨first, hfirst, hrun⟩ := (Option.any_eq_true _ _).mp hrun
  obtain ⟨hsound, hrun⟩ := (Bool.and_eq_true _ _).mp hrun
  obtain ⟨fed, hfed, hresult⟩ := (Option.any_eq_true _ _).mp hrun
  simp only [Bool.and_eq_true, Option.isNone_iff_eq_none, Bool.not_eq_true'] at hsound
  simp only [Bool.and_eq_true, beq_iff_eq, Bool.not_eq_true'] at hresult
  have hstreamed : first.parser.Streamed padded none false := by
    simpa only [hsound.1, hsound.2] using Streamed.feed (.start ⟨20, hfresh⟩) hfirst
  obtain ⟨⟨⟨⟨⟨hone, hstay⟩, hzero⟩, htwo⟩, hgone⟩, hplaceholder⟩ := hresult
  exact ⟨first.parser, fed, hstreamed, hfed, hone, hstay, hzero, htwo, hgone, hplaceholder⟩

end Parser

end Earley
