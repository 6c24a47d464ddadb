import Earley.Proofs.Parser.Run
import Earley.Proofs.Parser.Steps

/-!
# The table of a parser

The columns of a parser stand in a table by their numbers, the earlier ones first, then the last
one, and behind refused input the empty one. Entries may be missing, since columns are given up or
passed over, but what is there is in its place. Feeding, rewinding and restoring keep it so, whatever
the bookmark may be.

## Main definitions

* `Parser.bookmark?`: the bookmark of a column
* `Parser.Placed`: the columns are in their places
* `Parser.leading`, `Parser.Leads`: what a parser comes to, whatever it is told to do

## Main results

* `Parser.bookmark?_eq_some_iff`: what the table of a parser holds
* `Parser.Placed.column?_current`: the column of the current number is the last one
* `Parser.Placed.feed`, `Parser.Placed.restore`, `Parser.Placed.rewind`: the columns stay in their
  places
* `Parser.Placed.step`, `Parser.Step.frame`, `Parser.Step.blocked_eq`: what every step keeps
* `Parser.Session.placed`, `Parser.Session.exists_frame`: what every session keeps
-/

namespace Earley

variable {Chunk Mark Log : Type} {lexer : Lexer Chunk Mark} {g : Grammar} {fuel i j : Nat}
  {tokens : List (Token × Mark)} {chunk : Chunk} {chart : Chart} {b : Bookmark Mark}
  {p q : Parser lexer} {halt : Halt lexer} {fed : Fed lexer} {operation : Operation Chunk Mark}
  {terms : Terms lexer Log} {log : Log}

namespace Parser

/-! ## Entries -/

/-- **The bookmark of a column**, if that is kept. -/
def bookmark? (p : Parser lexer) (j : Nat) : Option (Bookmark Mark) :=
  p.table[j]?.join

/-- A column that is kept is the one of its bookmark. -/
theorem column?_eq_map (p : Parser lexer) (j : Nat) :
    p.column? j = (p.bookmark? j).map Bookmark.chart := rfl

theorem column?_of_bookmark? (hb : p.bookmark? j = some b) : p.column? j = some b.chart := by
  rw [column?_eq_map, hb, Option.map_some]

/-- A column is kept if its bookmark is. -/
theorem isSome_column?_iff : (p.column? j).isSome = true ↔ ∃ b, p.bookmark? j = some b := by
  rw [column?_eq_map, Option.isSome_map, Option.isSome_iff_exists]

/-- The entries of the table by their numbers. -/
theorem getElem?_table (p : Parser lexer) (j : Nat) :
    p.table[j]? =
      if j < p.past.size then p.past[j]?
      else if j = p.past.size then some (some p.head)
      else if p.blocked = true ∧ j = p.past.size + 1 then some (some p.placeholder)
      else none := by
  unfold table
  split <;> grind

/-- The table of a parser that refused nothing. -/
theorem table_of_open (h : p.blocked = false) : p.table = p.past.push (some p.head) := by
  simp [table, h]

/-- Behind refused input stands the empty column. -/
theorem table_of_blocked (h : p.blocked = true) :
    p.table = (p.past.push (some p.head)).push (some p.placeholder) := by
  simp [table, h]

/-- **What the table of a parser holds**: earlier columns, the last one, and behind refused input the
empty one. -/
theorem bookmark?_eq_some_iff :
    p.bookmark? j = some b ↔ p.past[j]? = some (some b) ∨ (j = p.past.size ∧ b = p.head) ∨
      (p.blocked = true ∧ j = p.past.size + 1 ∧ b = p.placeholder) := by
  rw [bookmark?, Option.join_eq_some_iff, getElem?_table]
  grind

/-- The earlier columns of a restored parser. -/
theorem past_restore (p : Parser lexer) (b : Bookmark Mark) :
    (p.restore b).past =
      p.table.take b.index ++ Array.replicate (b.index - (p.table.take b.index).size) none := rfl

/-- What a restored parser keeps of a table: the columns before the bookmark. -/
theorem getElem?_past_restore (p : Parser lexer) (b : Bookmark Mark) (j : Nat) :
    (p.restore b).past[j]? = if j < b.index then some (p.bookmark? j) else none := by
  rw [past_restore, bookmark?, Array.take_eq_extract]
  grind

@[simp] theorem size_past_restore (p : Parser lexer) (b : Bookmark Mark) :
    (p.restore b).past.size = b.index := by
  rw [past_restore, Array.take_eq_extract, Array.size_append, Array.size_replicate,
    Array.size_extract]
  omega

/-- **The columns of a restored parser**: those before the bookmark, as they were, and the bookmark. -/
theorem bookmark?_restore (p : Parser lexer) (b : Bookmark Mark) (j : Nat) :
    (p.restore b).bookmark? j =
      if j < b.index then p.bookmark? j else if j = b.index then some b else none := by
  have hhead : (p.restore b).head = b := rfl
  have hopen : (p.restore b).blocked = false := rfl
  rw [bookmark?, getElem?_table, size_past_restore, getElem?_past_restore, hhead, hopen]
  split
  · rfl
  · split <;> simp

/-- **Rewinding is restoring** a bookmark of the parser's own, if it keeps its history. -/
theorem rewind_eq_ok_iff :
    p.rewind i = .ok q ↔ p.keepHistory = true ∧ ∃ b, p.bookmark? i = some b ∧ p.restore b = q := by
  unfold rewind bookmark?
  cases p.keepHistory <;> cases p.table[i]?.join <;> simp

/-- What a test says of a rewound parser. -/
theorem exists_of_any_rewind {test : Parser lexer → Bool}
    (h : (p.rewind i).toOption.any test = true) : ∃ q, p.rewind i = .ok q ∧ test q = true := by
  cases hrewind : p.rewind i with
  | error e => simp [hrewind, Except.toOption] at h
  | ok q => exact ⟨q, rfl, by simpa [hrewind, Except.toOption] using h⟩

/-- A parser that keeps its history cannot be rewound to a column that is not there. -/
theorem rewind_eq_error_iff (hkeep : p.keepHistory = true) {e : HistoryError} :
    p.rewind i = .error e ↔ p.bookmark? i = none ∧ e = .noColumn i := by
  unfold rewind bookmark?
  cases p.table[i]?.join <;> simp [hkeep, eq_comm]

/-! ## Places -/

/-- **The columns of a parser are in their places**: each entry of its table holds the column of
that number. -/
structure Placed (p : Parser lexer) : Prop where
  size_past : p.past.size = p.current
  index_past : ∀ {j : Nat} {b : Bookmark Mark}, p.past[j]? = some (some b) → b.index = j

/-- Places depend on nothing but the columns that were reached. -/
theorem Placed.congr (h : p.Placed) (hpast : q.past = p.past) (hhead : q.head = p.head) :
    q.Placed where
  size_past := by rw [hpast, current, hhead, h.size_past, current]
  index_past := by
    rw [hpast]
    exact h.index_past

/-- The entries of a table with the columns in their places. -/
theorem Placed.bookmark?_eq_some_iff (h : p.Placed) :
    p.bookmark? j = some b ↔ p.past[j]? = some (some b) ∨ (j = p.current ∧ b = p.head) ∨
      (p.blocked = true ∧ j = p.current + 1 ∧ b = p.placeholder) := by
  rw [Parser.bookmark?_eq_some_iff, h.size_past]

/-- Every entry holds the column of its number. -/
theorem Placed.index_of_bookmark? (h : p.Placed) (hb : p.bookmark? j = some b) : b.index = j := by
  rcases h.bookmark?_eq_some_iff.mp hb with hpast | ⟨rfl, rfl⟩ | ⟨-, rfl, rfl⟩
  · exact h.index_past hpast
  · rfl
  · rfl

theorem Placed.bookmark?_current (h : p.Placed) : p.bookmark? p.current = some p.head :=
  h.bookmark?_eq_some_iff.mpr (.inr (.inl ⟨rfl, rfl⟩))

/-- **The column of the current number is the last one.** -/
theorem Placed.column?_current (h : p.Placed) : p.column? p.current = some p.head.chart :=
  column?_of_bookmark? h.bookmark?_current

/-- A fresh parser comes to column 0 with nothing in the past. -/
theorem fresh_of_start {keepHistory : Bool} (h : start lexer g keepHistory fuel = some p) :
    p.grammar = g ∧ p.keepHistory = keepHistory ∧ p.past = #[] ∧ p.blocked = false ∧
      p.current = 0 ∧ p.head.resume = lexer.origin := by
  obtain ⟨chart, hchart, rfl⟩ := Option.map_eq_some_iff.mp h
  exact ⟨rfl, rfl, rfl, rfl, Chart.index_initial hchart, rfl⟩

theorem placed_of_start {keepHistory : Bool} (h : start lexer g keepHistory fuel = some p) :
    p.Placed := by
  obtain ⟨-, -, hpast, -, hcurrent, -⟩ := fresh_of_start h
  exact ⟨by rw [hpast, hcurrent]; rfl, fun hb => absurd hb (by simp [hpast])⟩

/-- What is given up leaves a gap. -/
theorem getElem?_past_forget (hb : p.forget.past[j]? = some (some b)) :
    p.past[j]? = some (some b) := by
  unfold forget at hb
  split at hb
  · exact hb
  · grind

theorem bookmark?_of_forget (hb : p.forget.bookmark? j = some b) : p.bookmark? j = some b := by
  rw [bookmark?_eq_some_iff, size_past_forget, head_forget, blocked_forget] at hb
  rw [bookmark?_eq_some_iff]
  rcases hb with hpast | hlast | ⟨hblocked, hj, rfl⟩
  · exact .inl (getElem?_past_forget hpast)
  · exact .inr (.inl hlast)
  · exact .inr (.inr ⟨hblocked, hj, by rw [placeholder, head_forget, placeholder]⟩)

/-- A further column comes behind those that there are. -/
theorem bookmark?_extend (hopen : p.blocked = false) (chart : Chart) (mark : Mark)
    (hb : (p.extend chart mark).bookmark? j = some b) :
    (j = p.past.size + 1 ∧ b.chart = chart) ∨ (j ≤ p.past.size ∧ p.bookmark? j = some b) := by
  have hsize : (p.extend chart mark).past.size = p.past.size + 1 := Array.size_push _
  have hpast : (p.extend chart mark).past[j]? = (p.past.push (some p.head))[j]? := rfl
  rw [bookmark?_eq_some_iff, hsize, hpast, Array.getElem?_push] at hb
  rw [bookmark?_eq_some_iff]
  rcases hb with hpast | ⟨rfl, rfl⟩ | ⟨hblocked, -⟩
  · split at hpast
    · next hj =>
      obtain rfl := Option.some.inj (Option.some.inj hpast)
      exact .inr ⟨Nat.le_of_eq hj, .inr (.inl ⟨hj, rfl⟩)⟩
    · have hj : j < p.past.size := (Array.getElem?_eq_some_iff.mp hpast).1
      exact .inr ⟨Nat.le_of_lt hj, .inl hpast⟩
  · exact .inl ⟨rfl, rfl⟩
  · exact absurd (hblocked.symm.trans hopen) (by simp)

theorem Placed.forget (h : p.Placed) : p.forget.Placed where
  size_past := by
    rw [size_past_forget, current_forget]
    exact h.size_past
  index_past := fun hb => h.index_past (getElem?_past_forget hb)

theorem Placed.extend (h : p.Placed) (hindex : chart.index = p.current + 1) (mark : Mark) :
    (p.extend chart mark).Placed where
  size_past := by
    have hsize : (p.past.push (some p.head)).size = p.current + 1 := by
      rw [Array.size_push, h.size_past]
    exact hsize.trans hindex.symm
  index_past := by
    intro j b hb
    have hb : (p.past.push (some p.head))[j]? = some (some b) := hb
    rw [Array.getElem?_push, h.size_past] at hb
    split at hb
    · next hj =>
      obtain rfl := Option.some.inj (Option.some.inj hb)
      exact hj.symm
    · exact h.index_past hb

theorem Placed.feed (h : p.Placed) (hfeed : p.feed fuel chunk = some fed) :
    fed.parser.Placed := by
  refine feed_preserves ?_ (fun _ hq => hq.forget) ?_ h hfeed
  · intro q q' _ _ hpast hhead hq
    exact hq.congr hpast hhead
  · intro q token chart hshift hq
    exact hq.extend (Chart.index_shift hshift) token.2

/-- A parser may be restored with any bookmark. -/
theorem Placed.restore (h : p.Placed) (b : Bookmark Mark) : (p.restore b).Placed where
  size_past := size_past_restore p b
  index_past := by
    intro j c hc
    rw [getElem?_past_restore] at hc
    split at hc
    · exact h.index_of_bookmark? (Option.some.inj hc)
    · exact nomatch hc

theorem Placed.rewind (h : p.Placed) (hrewind : p.rewind i = .ok q) : q.Placed := by
  obtain ⟨-, b, -, rfl⟩ := rewind_eq_ok_iff.mp hrewind
  exact h.restore b

/-! ## Whatever a parser is told to do -/

/-- **Every step leaves the columns in their places.** -/
theorem Placed.step (h : p.Placed) (hstep : p.Step operation fed) : fed.parser.Placed := by
  cases hstep with
  | feed hfeed => exact h.feed hfeed
  | rewind hrewind => exact h.rewind hrewind
  | save => exact h
  | restore b => exact h.restore b

/-- **No step changes the grammar**, nor whether the history is kept. -/
theorem Step.frame (h : p.Step operation fed) :
    fed.parser.grammar = p.grammar ∧ fed.parser.keepHistory = p.keepHistory := by
  cases h with
  | feed hfeed =>
    refine feed_preserves (P := fun q => q.grammar = p.grammar ∧ q.keepHistory = p.keepHistory)
      ?_ ?_ (fun _ _ _ _ hq => hq) ⟨rfl, rfl⟩ hfeed
    · intro q q' hgrammar hkeep _ _ hq
      exact ⟨hgrammar.trans hq.1, hkeep.trans hq.2⟩
    · intro q hq
      rwa [grammar_forget, keepHistory_forget]
  | rewind hrewind =>
    obtain ⟨-, b, -, rfl⟩ := rewind_eq_ok_iff.mp hrewind
    exact ⟨rfl, rfl⟩
  | save | restore => exact ⟨rfl, rfl⟩

/-- **A step leaves the parser blocked** exactly if a chunk was refused, unless the parser is only
saved. -/
theorem Step.blocked_eq (h : p.Step operation fed) (hsave : operation ≠ .save) :
    fed.parser.blocked = fed.error.isSome := by
  cases h with
  | feed hfeed => exact blocked_feed hfeed
  | rewind hrewind =>
    obtain ⟨-, b, -, rfl⟩ := rewind_eq_ok_iff.mp hrewind
    rfl
  | save => exact absurd rfl hsave
  | restore => rfl

/-- **In every session the columns stay in their places.** -/
theorem Session.placed (h : Session terms log p) (hbegins : ∀ p, terms.begins p → p.Placed) :
    p.Placed :=
  h.invariant (I := fun _ p => p.Placed) hbegins (fun _ _ _ _ _ ih hstep _ => ih.step hstep)
    fun _ _ _ _ saved ih _ _ => ih.restore saved.save

/-- **The grammar of a session** is that of the parser it began with, and so is whether the history
is kept. -/
theorem Session.exists_frame (h : Session terms log p) :
    ∃ fresh, terms.begins fresh ∧ p.grammar = fresh.grammar ∧
      p.keepHistory = fresh.keepHistory := by
  refine h.invariant (I := fun _ p => ∃ fresh, terms.begins fresh ∧ p.grammar = fresh.grammar ∧
    p.keepHistory = fresh.keepHistory) ?_ ?_ ?_
  · intro p hp
    exact ⟨p, hp, rfl, rfl⟩
  · rintro - - p operation fed ⟨fresh, hfresh, hgrammar, hkeep⟩ hstep -
    exact ⟨fresh, hfresh, hstep.frame.1.trans hgrammar, hstep.frame.2.trans hkeep⟩
  · intro _ _ _ _ _ ih _ _
    exact ih

/-- Sessions from a parser on, in which everything is allowed. The bookmarks may be those of any
parser, of another grammar too. -/
def leading (p : Parser lexer) : Terms lexer Unit where
  begins q := q = p
  first := ()
  follows _ _ _ _ _ := True

/-- **What a parser comes to** that is fed, rewound and restored as one likes. -/
def Leads (p q : Parser lexer) : Prop :=
  Session (leading p) () q

theorem Leads.refl : p.Leads p :=
  .start rfl

/-- A parser may be told to do anything next. -/
theorem Leads.step (h : p.Leads q) (hstep : q.Step operation fed) : p.Leads fed.parser :=
  h.unlogged hstep trivial

theorem Leads.placed (h : p.Leads q) (hp : p.Placed) : q.Placed := by
  refine Session.placed h fun fresh hfresh => ?_
  obtain rfl := hfresh
  exact hp

/-- Neither the grammar changes nor whether the history is kept. -/
theorem Leads.frame (h : p.Leads q) :
    q.grammar = p.grammar ∧ q.keepHistory = p.keepHistory := by
  obtain ⟨fresh, rfl, hframe⟩ := Session.exists_frame h
  exact hframe

end Parser

end Earley
