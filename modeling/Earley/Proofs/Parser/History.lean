import Earley.Lexer.Characters
import Earley.Proofs.Parser.Recognition
import Earley.Proofs.Parser.Table

/-!
# How far a parser can be rewound

A parser that keeps its history has all columns up to the last one it reached, and can be rewound to
each of them. Behind refused input there is one column more, which is empty. It is no place that the
input has reached, but it stands in the table, and a rewind can go there: the parser then counts a
token more than it has taken, and takes no further one. Any other column is not there, and a parser
that is to be rewound to it stays as it is.

## Main definitions

* `Parser.Complete`: no column is missing
* `Parser.rewound`: a parser after it was told to rewind
* `Parser.logging`, `Parser.Logged`: a parser that keeps its history, fed and rewound

## Main results

* `Parser.Complete.exists_bookmark?_iff`: the columns of a complete parser
* `Parser.rewind_logged`: which rewinds are refused
-/

namespace Earley

variable {Chunk Mark : Type} {lexer : Lexer Chunk Mark} {g : Grammar} {fuel i j : Nat}
  {tokens : List (Token × Mark)} {chunk : Chunk} {chart : Chart} {p q : Parser lexer}
  {halt : Halt lexer} {fed : Fed lexer} {refusal : Option InputError}

namespace Parser

/-- **A parser that keeps its history and misses no column.** -/
structure Complete (p : Parser lexer) : Prop where
  keepHistory : p.keepHistory = true
  placed : p.Placed
  past : none ∉ p.past

/-- **The columns of a complete parser** are those up to the last one, and behind refused input the
empty one. -/
theorem Complete.exists_bookmark?_iff (h : p.Complete) :
    (∃ b, p.bookmark? j = some b) ↔
      j ≤ p.current ∨ (p.blocked = true ∧ j = p.current + 1) := by
  simp only [h.placed.bookmark?_eq_some_iff]
  constructor
  · rintro ⟨b, hpast | ⟨rfl, -⟩ | ⟨hblocked, rfl, -⟩⟩
    · have hj : j < p.past.size := (Array.getElem?_eq_some_iff.mp hpast).1
      rw [h.placed.size_past] at hj
      exact .inl (Nat.le_of_lt hj)
    · exact .inl (Nat.le_refl _)
    · exact .inr ⟨hblocked, rfl⟩
  · rintro (hj | ⟨hblocked, rfl⟩)
    · rcases Nat.lt_or_eq_of_le hj with hlt | rfl
      · rw [← h.placed.size_past] at hlt
        -- an entry that is not missing is a bookmark
        obtain ⟨b, hb⟩ := Option.ne_none_iff_exists'.mp
          (fun hnone => h.past (hnone ▸ Array.getElem_mem hlt))
        exact ⟨b, .inl (Array.getElem?_eq_some_iff.mpr ⟨hlt, hb⟩)⟩
      · exact ⟨p.head, .inr (.inl ⟨rfl, rfl⟩)⟩
    · exact ⟨p.placeholder, .inr (.inr ⟨hblocked, rfl, rfl⟩)⟩

theorem complete_of_start (h : start lexer g true fuel = some p) : p.Complete := by
  have hplaced := placed_of_start h
  obtain ⟨chart, -, rfl⟩ := Option.map_eq_some_iff.mp h
  exact ⟨rfl, hplaced, by simp [refresh]⟩

theorem Complete.forget (h : p.Complete) : p.forget.Complete := by
  rwa [forget_eq_self h.keepHistory]

theorem Complete.extend (h : p.Complete) (hindex : chart.index = p.current + 1) (mark : Mark) :
    (p.extend chart mark).Complete where
  keepHistory := h.keepHistory
  placed := h.placed.extend hindex mark
  past := by
    intro hmem
    rcases Array.mem_push.mp hmem with hpast | hlast
    · exact h.past hpast
    · exact nomatch hlast

theorem Complete.feed (h : p.Complete) (hfeed : p.feed fuel chunk = some fed) :
    fed.parser.Complete := by
  refine feed_preserves ?_ (fun _ hq => hq.forget) ?_ h hfeed
  · intro q q' _ hkeep hpast hhead hq
    exact ⟨hkeep.trans hq.keepHistory, hq.placed.congr hpast hhead, hpast ▸ hq.past⟩
  · intro q token chart hshift hq
    exact hq.extend (Chart.index_shift hshift) token.2

/-- A rewind leaves the columns before the one that it goes to. -/
theorem Complete.rewind (h : p.Complete) (hrewind : p.rewind i = .ok q) : q.Complete := by
  have hplaced := h.placed.rewind hrewind
  obtain ⟨-, b, hb, rfl⟩ := rewind_eq_ok_iff.mp hrewind
  refine ⟨h.keepHistory, hplaced, fun hmem => ?_⟩
  obtain ⟨j, hj⟩ := Array.mem_iff_getElem?.mp hmem
  rw [getElem?_past_restore, h.placed.index_of_bookmark? hb] at hj
  have hi := h.exists_bookmark?_iff.mp ⟨b, hb⟩
  split at hj
  · next hlt =>
    obtain ⟨c, hc⟩ := h.exists_bookmark?_iff.mpr (.inl (show j ≤ p.current by omega))
    exact absurd (hc.symm.trans (Option.some.inj hj)) (by simp)
  · exact nomatch hj

/-- **A complete parser can be rewound** to the columns up to the last one, and behind refused input
to the empty one. -/
theorem Complete.exists_rewind_iff (h : p.Complete) :
    (∃ q, p.rewind i = .ok q) ↔ i ≤ p.current ∨ (p.blocked = true ∧ i = p.current + 1) := by
  rw [← h.exists_bookmark?_iff]
  simp only [rewind_eq_ok_iff, h.keepHistory, true_and]
  exact ⟨fun ⟨q, b, hb, _⟩ => ⟨b, hb⟩, fun ⟨b, hb⟩ => ⟨p.restore b, b, hb, rfl⟩⟩

/-- What stands behind refused input is the empty column. -/
theorem Complete.rewind_placeholder (h : p.Complete) (hblocked : p.blocked = true) :
    p.rewind (p.current + 1) = .ok (p.restore p.placeholder) :=
  rewind_eq_ok_iff.mpr ⟨h.keepHistory, p.placeholder,
    h.placed.bookmark?_eq_some_iff.mpr (.inr (.inr ⟨hblocked, rfl, rfl⟩)), rfl⟩

/-! ## Feeds and rewinds -/

/-- **A parser after it was told to rewind**: if that is refused, it stays as it is. -/
def rewound (p : Parser lexer) (i : Nat) : Parser lexer :=
  match p.rewind i with
  | .ok q => q
  | .error _ => p

/-- Sessions of parsers that keep their history and are fed and rewound only, with a log of the
error of the latest chunk, unless the parser was rewound since. -/
def logging (g : Grammar) : Terms lexer (Option InputError) where
  begins p := ∃ fuel, start lexer g true fuel = some p
  first := none
  follows _ _ operation fed next :=
    match operation with
    | .feed .. | .rewind _ => next = fed.error
    | _ => False

/-- **A parser that keeps its history, fed and rewound**, with the error of the latest chunk, unless
it was rewound since. -/
def Logged (g : Grammar) (refusal : Option InputError) (p : Parser lexer) : Prop :=
  Session (logging g) refusal p

theorem Logged.complete (h : p.Logged g refusal) :
    p.Complete ∧ p.blocked = refusal.isSome := by
  induction h with
  | start h =>
    obtain ⟨fuel, h⟩ := h
    exact ⟨complete_of_start h, (fresh_of_start h).2.2.2.1⟩
  | step _ hstep hnext ih =>
    cases hstep with
    | feed h =>
      obtain rfl := hnext
      exact ⟨ih.1.feed h, blocked_feed h⟩
    | rewind h =>
      obtain rfl := hnext
      exact ⟨ih.1.rewind h, (Step.rewind h).blocked_eq (by simp)⟩
    | save | restore => exact False.elim hnext
  | borrow _ _ h => exact False.elim h

/-- **A rewind goes to the columns up to the last one**, and to no others, exactly if the latest
chunk was not refused or was rewound since. Otherwise it goes to the empty column behind the refused
input as well. A parser that is rewound is at the column it was rewound to, and one that refuses
stays as it is. -/
theorem rewind_logged (hp : p.Logged g refusal) :
    (refusal = none ↔ ∀ i, (∃ q, p.rewind i = .ok q) ↔ i ≤ p.current) ∧
      (refusal ≠ none → (∀ i, (∃ q, p.rewind i = .ok q) ↔ i ≤ p.current + 1) ∧
        ∃ q, p.rewind (p.current + 1) = .ok q ∧ q.head.chart.head.isEmpty = true) ∧
      (∀ i q, p.rewind i = .ok q → q.current = i) ∧
      ∀ i e, p.rewind i = .error e → e = .noColumn i ∧ p.rewound i = p := by
  obtain ⟨hcomplete, hblocked⟩ := hp.complete
  have hrefused : p.blocked = true ↔ refusal ≠ none := by rw [hblocked, Option.isSome_iff_ne_none]
  refine ⟨⟨fun hnone i => ?_, fun hlast => ?_⟩, fun hne => ⟨fun i => ?_, ?_⟩, ?_, ?_⟩
  · rw [hcomplete.exists_rewind_iff, hrefused]
    simp [hnone]
  · by_contra hne
    have hpast := (hlast (p.current + 1)).mp
      (hcomplete.exists_rewind_iff.mpr (.inr ⟨hrefused.mpr hne, rfl⟩))
    omega
  · rw [hcomplete.exists_rewind_iff, hrefused, and_iff_right hne]
    omega
  · exact ⟨_, hcomplete.rewind_placeholder (hrefused.mpr hne), rfl⟩
  · intro i q hrewind
    obtain ⟨-, b, hb, rfl⟩ := rewind_eq_ok_iff.mp hrewind
    exact hcomplete.placed.index_of_bookmark? hb
  · intro i e hrewind
    exact ⟨((rewind_eq_error_iff hcomplete.keepHistory).mp hrewind).2, by rw [rewound, hrewind]⟩

/-- Behind a letter that is taken, a rewind goes to column 1 at most. Behind a further one that is
refused, it goes to column 2. -/
theorem rewind_logged_padded :
    ∃ (p : Parser characters.toLexer) (fed : Fed characters.toLexer),
      p.Logged padded none ∧ p.current = 1 ∧ (∀ i, (∃ q, p.rewind i = .ok q) ↔ i ≤ 1) ∧
        p.feed 20 "b" = some fed ∧ fed.parser.current = 1 ∧
          ∀ i, (∃ q, fed.parser.rewind i = .ok q) ↔ i ≤ 2 := by
  have hrun : (start characters.toLexer padded true 20).any (fun fresh =>
      (fresh.feed 20 "a").any fun first => first.error.isNone && first.parser.current == 1 &&
        (first.parser.feed 20 "b").any fun fed =>
          fed.error.isSome && fed.parser.current == 1) = true := by decide +kernel
  obtain ⟨fresh, hfresh, hrun⟩ := (Option.any_eq_true _ _).mp hrun
  obtain ⟨first, hfirst, hrun⟩ := (Option.any_eq_true _ _).mp hrun
  obtain ⟨hsound, hrun⟩ := (Bool.and_eq_true _ _).mp hrun
  obtain ⟨fed, hfed, hresult⟩ := (Option.any_eq_true _ _).mp hrun
  have hsound : first.error = none ∧ first.parser.current = 1 := by simpa using hsound
  have hresult : fed.error ≠ none ∧ fed.parser.current = 1 := by
    simpa [Option.isSome_iff_ne_none] using hresult
  have hlogged : first.parser.Logged padded none :=
    .step (.start ⟨20, hfresh⟩) (.feed hfirst) hsound.1.symm
  refine ⟨first.parser, fed, hlogged, hsound.2, ?_, hfed, hresult.2, ?_⟩
  · simpa only [hsound.2] using (rewind_logged hlogged).1.mp rfl
  · have hfurther : fed.parser.Logged padded fed.error := .step hlogged (.feed hfed) rfl
    simpa only [hresult.2] using ((rewind_logged hfurther).2.1 hresult.1).1

/-- One letter is taken and one is refused, and yet there is a column 2 to rewind to. -/
theorem rewind_behind_refused :
    ∃ (p q : Parser characters.toLexer) (e : InputError),
      p.Logged padded (some e) ∧ p.current = 1 ∧ p.rewind 2 = .ok q ∧ q.current = 2 := by
  have hrun : (start characters.toLexer padded true 20).any (fun fresh =>
      (fresh.feed 20 "ab").any fun fed => fed.error.isSome && fed.parser.current == 1 &&
        match fed.parser.rewind 2 with
        | .ok q => q.current == 2
        | .error _ => false) = true := by decide +kernel
  obtain ⟨fresh, hfresh, hrun⟩ := (Option.any_eq_true _ _).mp hrun
  obtain ⟨fed, hfed, hrun⟩ := (Option.any_eq_true _ _).mp hrun
  obtain ⟨hresult, hrun⟩ := (Bool.and_eq_true _ _).mp hrun
  have hresult : fed.error.isSome = true ∧ fed.parser.current = 1 := by simpa using hresult
  obtain ⟨e, he⟩ := Option.isSome_iff_exists.mp hresult.1
  cases hrewind : fed.parser.rewind 2 with
  | error e => simp [hrewind] at hrun
  | ok q =>
    have hcurrent : q.current = 2 := by simpa [hrewind] using hrun
    have hlogged : fed.parser.Logged padded (some e) :=
      .step (.start ⟨20, hfresh⟩) (.feed hfed) he.symm
    exact ⟨fed.parser, q, e, hlogged, hresult.2, hrewind, hcurrent⟩

end Parser

end Earley
