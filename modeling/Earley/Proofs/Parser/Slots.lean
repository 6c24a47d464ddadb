import Earley.Proofs.Chart.Inputs
import Earley.Proofs.Parser.Chunks
import Earley.Proofs.Parser.Finishing

/-!
# A table with a cursor

The columns of a parser can be kept in one table with a cursor: the entry under the cursor is the
last column that was reached, and behind refused input the empty column stands behind it. Feeding
then looks up the entry under the cursor, empties the entry before it and adds entries at the end;
restoring pads the table, writes an entry and cuts off what is behind. All of this goes wrong if an
entry is not there.

It never does. Whatever a parser was told to do, such a table moves on with it: no look-up misses and
no entry that is written lies outside the table.

## Main definitions

* `Slots`: a table with a cursor
* `Slots.Gap`: the entry that is not there
* `Slots.feed`, `Slots.restore`, `Slots.finish`: what parsers do, done to a table
* `Parser.slots`: the table of a parser

## Main results

* `Parser.Placed.feed_slots`, `Parser.Placed.restore_slots`, `Parser.Placed.finish_slots`: a table
  moves on with its parser
* `Parser.table_leads`: the table of a parser, whatever it was told to do
-/

namespace Earley

/-- **A table with a cursor.** -/
@[ext]
structure Slots (Mark : Type) where
  entries : Array (Option (Bookmark Mark))
  cursor : Nat

namespace Slots

variable {Mark : Type}

/-- **The entry that is not there**, where one is looked up under the cursor or is to be written. -/
inductive Gap where
  | missing (cursor : Nat)
  | outside (index : Nat)
deriving DecidableEq, Repr

/-- The bookmark under the cursor. -/
def head (s : Slots Mark) : Except Gap (Bookmark Mark) :=
  match s.entries[s.cursor]? with
  | some (some b) => .ok b
  | _ => .error (.missing s.cursor)

/-- Cuts off what is behind the cursor. -/
def trim (s : Slots Mark) : Slots Mark :=
  { s with entries := s.entries.take (s.cursor + 1) }

/-- Writes an entry. -/
def write (s : Slots Mark) (i : Nat) (b? : Option (Bookmark Mark)) : Except Gap (Slots Mark) :=
  if i < s.entries.size then
    .ok { s with entries := s.entries.setIfInBounds i b? }
  else
    .error (.outside i)

theorem write_of_lt {s : Slots Mark} {i : Nat} (h : i < s.entries.size)
    (b? : Option (Bookmark Mark)) :
    s.write i b? = .ok { s with entries := s.entries.setIfInBounds i b? } :=
  if_pos h

/-- Adds an entry at the end, where the cursor does not go. -/
def push (s : Slots Mark) (b : Bookmark Mark) : Slots Mark :=
  { s with entries := s.entries.push (some b) }

/-- Adds an entry at the end, and the cursor moves on. -/
def advance (s : Slots Mark) (b : Bookmark Mark) : Slots Mark :=
  { s.push b with cursor := s.cursor + 1 }

/-- Gives up the entry before the cursor, unless history is kept. -/
def forget (s : Slots Mark) (keepHistory : Bool) : Except Gap (Slots Mark) :=
  if keepHistory = false ∧ 0 < s.cursor then s.write (s.cursor - 1) none else .ok s

section Feed

variable (g : Grammar) (keepHistory : Bool) (origin : Mark) (fuel : Nat) (failed : Bool)

/-- Takes the tokens of a chunk, and then comes to its end, or to where the lexer failed. -/
def consume : List (Token × Mark) → Slots Mark → Option (Except Gap (Slots Mark))
  | [], s =>
    some (if failed then s.head.map fun b => s.push { chart := b.chart.blank, resume := origin }
      else .ok s)
  | (t, mark) :: rest, s =>
    match s.head, s.forget keepHistory with
    | .error gap, _ => some (.error gap)
    | _, .error gap => some (.error gap)
    | .ok b, .ok s =>
      match b.chart.shift g fuel t with
      | none => none
      | some chart =>
        if chart.head.isEmpty then
          some (.ok (s.push { chart, resume := origin }))
        else
          consume rest (s.advance { chart, resume := mark })

/-- **Feeds a chunk** that was read into tokens. -/
def feed (reading : Reading Mark) (s : Slots Mark) : Option (Except Gap (Slots Mark)) :=
  consume g keepHistory origin fuel reading.error.isSome reading.tokens s.trim

end Feed

/-- **Goes back to a bookmark.** -/
def restore (s : Slots Mark) (b : Bookmark Mark) : Except Gap (Slots Mark) :=
  let padded : Slots Mark :=
    { entries := s.entries ++ Array.replicate (b.index + 1 - s.entries.size) none
      cursor := b.index }
  (padded.write b.index (some b)).map trim

/-- **The values of the input**, read off the last entry. -/
def finish (s : Slots Mark) (name : String) : List Value :=
  match s.entries.back? with
  | some (some b) => b.chart.results name
  | _ => []

end Slots

/-- A table that is padded with gaps. -/
theorem getElem?_append_replicate {α : Type} {xs : Array (Option α)} {n j : Nat}
    (hj : j < xs.size + n) : (xs ++ Array.replicate n none)[j]? = some xs[j]?.join := by
  rw [Array.getElem?_append]
  split
  · next hin => simp [Array.getElem?_eq_getElem hin]
  · next hout =>
    have hgap : j - xs.size < n := by omega
    simp [Array.getElem?_eq_none (Nat.le_of_not_lt hout), hgap]

variable {Chunk Mark : Type} {lexer : Lexer Chunk Mark} {g : Grammar} {chart : Chart}
  {p : Parser lexer}

namespace Parser

/-- **The table of a parser**, with the cursor at the last column that it reached. -/
def slots (p : Parser lexer) : Slots Mark where
  entries := p.table
  cursor := p.current

@[simp] theorem entries_slots (p : Parser lexer) : p.slots.entries = p.table := rfl

@[simp] theorem cursor_slots (p : Parser lexer) : p.slots.cursor = p.current := rfl

/-- A further column comes at the end, and the cursor with it. -/
theorem extend_slots (hopen : p.blocked = false)
    (hindex : chart.index = p.current + 1) (mark : Mark) :
    p.slots.advance { chart, resume := mark } = (p.extend chart mark).slots := by
  have hopen' : (p.extend chart mark).blocked = false := hopen
  refine Slots.ext ?_ hindex.symm
  have hentries : (p.slots.advance { chart, resume := mark }).entries =
    p.table.push (some { chart, resume := mark }) := rfl
  rw [hentries, table_of_open hopen]
  exact (table_of_open hopen').symm

/-- Behind refused input comes the empty column. -/
theorem slots_block (hopen : p.blocked = false) (mark : Mark) :
    (p.block mark).slots = p.slots.push p.placeholder := by
  have hblocked : (p.block mark).blocked = true := rfl
  refine Slots.ext ?_ rfl
  rw [entries_slots, table_of_blocked hblocked, Slots.push, entries_slots, table_of_open hopen]
  rfl

/-- **A table goes back with its parser.** The entry of the bookmark is there. -/
theorem restore_slots (p : Parser lexer) (b : Bookmark Mark) :
    p.slots.restore b = .ok (p.restore b).slots := by
  have hopen : (p.restore b).table = (p.restore b).past.push (some b) := table_of_open rfl
  have hbound : b.index < (p.table ++ Array.replicate (b.index + 1 - p.table.size) none).size := by
    rw [Array.size_append, Array.size_replicate]
    omega
  rw [Slots.restore, Slots.write_of_lt hbound]
  refine congrArg Except.ok (Slots.ext (Array.ext_getElem? fun j => ?_) rfl)
  have hsize : (p.restore b).past.size = b.index := size_past_restore p b
  have hpadded : j < b.index →
      (p.table ++ Array.replicate (b.index + 1 - p.table.size) none)[j]? =
        some (p.bookmark? j) := fun hj => getElem?_append_replicate (by omega)
  simp only [Slots.trim, entries_slots]
  rw [hopen, Array.take_eq_extract, Array.getElem?_extract, Array.size_setIfInBounds,
    Array.getElem?_setIfInBounds, Array.getElem?_push, getElem?_past_restore, hsize,
    Nat.zero_add, Nat.sub_zero, Nat.min_eq_left hbound]
  rcases Nat.lt_trichotomy j b.index with hj | rfl | hj
  · simp [hj, hpadded hj, Nat.lt_succ_of_lt hj, Nat.ne_of_gt hj, Nat.ne_of_lt hj]
  · simpa using hbound
  · simp [Nat.not_lt_of_lt hj, Nat.ne_of_gt hj, Nat.not_lt_of_le (Nat.succ_le_of_lt hj)]

/-- The values of the input are those of the last entry. -/
theorem finish_slots (p : Parser lexer) : p.slots.finish p.grammar.start = p.finish := by
  cases hblocked : p.blocked with
  | true =>
    have hback : p.slots.entries.back? = some (some p.placeholder) := by
      simp [table_of_blocked hblocked]
    rw [Slots.finish, hback, finish, if_pos hblocked]
    exact Chart.results_of_head_eq rfl _
  | false =>
    have hback : p.slots.entries.back? = some (some p.head) := by
      simp [table_of_open hblocked]
    rw [Slots.finish, hback, finish, if_neg (by simp [hblocked])]

namespace Placed

/-- **The size of a table**: the columns that were reached, and behind refused input one more. -/
theorem size_table (h : p.Placed) : p.table.size = p.current + if p.blocked then 2 else 1 := by
  cases hblocked : p.blocked with
  | true => simp [table_of_blocked hblocked, h.size_past]
  | false => simp [table_of_open hblocked, h.size_past]

theorem getElem?_current (h : p.Placed) : p.table[p.current]? = some (some p.head) := by
  rw [getElem?_table, h.size_past]
  simp

theorem head_slots (h : p.Placed) : p.slots.head = .ok p.head := by
  have hget : p.slots.entries[p.slots.cursor]? = some (some p.head) := h.getElem?_current
  rw [Slots.head, hget]

/-- **Cutting off what is behind the cursor** leaves the table from before the refusal. -/
theorem trim_slots (h : p.Placed) : p.slots.trim = p.unblock.slots := by
  refine Slots.ext (Array.ext_getElem? fun j => ?_) rfl
  have hpast := h.size_past
  have hsize : p.current + 1 ≤ p.table.size := by
    rw [h.size_table]
    split <;> omega
  have hopen : p.unblock.table = p.past.push (some p.head) := table_of_open (p := p.unblock) rfl
  simp only [Slots.trim, entries_slots, cursor_slots]
  rw [hopen, Array.take_eq_extract, Array.getElem?_extract, getElem?_table]
  grind

/-- What is given up is there. -/
theorem forget_slots (h : p.Placed) (hopen : p.blocked = false) :
    p.slots.forget p.keepHistory = .ok p.forget.slots := by
  have hforget : p.forget.table = p.forget.past.push (some p.head) := by
    rw [table_of_open ((blocked_forget p).trans hopen), head_forget]
  have hpast := h.size_past
  unfold Slots.forget
  split
  · next hcond =>
    have hbound : p.current - 1 < p.table.size := by
      rw [h.size_table]
      split <;> omega
    rw [cursor_slots, Slots.write_of_lt hbound]
    refine congrArg Except.ok (Slots.ext (Array.ext_getElem? fun j => ?_) (current_forget p).symm)
    have hpos : 0 < p.current := hcond.2
    simp only [entries_slots]
    rw [hforget, table_of_open hopen, Parser.forget, if_neg (by simp [hcond.1])]
    grind
  · next hcond =>
    have hsame : p.forget.past = p.past := by
      unfold Parser.forget
      split
      · rfl
      · -- in column 0 there is nothing to give up
        have hnone : p.past = #[] := by
          apply Array.eq_empty_of_size_eq_zero
          rw [cursor_slots] at hcond
          grind
        simp [hnone]
    refine congrArg Except.ok (Slots.ext ?_ (current_forget p).symm)
    rw [entries_slots, entries_slots, hforget, hsame, table_of_open hopen]

/-- A table moves on with a run over tokens. -/
theorem consume_slots (h : p.Placed) (hopen : p.blocked = false) (fuel : Nat) (chunk : Chunk)
    (start : Mark) (reading : Reading Mark) (tokens : List (Token × Mark)) :
    Slots.consume p.grammar p.keepHistory lexer.origin fuel reading.error.isSome tokens p.slots =
      (run fuel tokens p).map fun halt =>
        .ok (halt.conclude chunk start reading).parser.slots := by
  induction tokens generalizing p with
  | nil =>
    simp only [Slots.consume, run, Option.map_some, Halt.conclude, h.head_slots]
    cases reading.error with
    | none => rfl
    | some e =>
      have hblock := slots_block hopen reading.stand
      exact congrArg (fun s => some (Except.ok s)) hblock.symm
  | cons token rest ih =>
    have hopen' : p.forget.blocked = false := (blocked_forget p).trans hopen
    simp only [Slots.consume, run, h.head_slots, h.forget_slots hopen]
    cases hshift : p.head.chart.shift p.grammar fuel token.1 with
    | none => rfl
    | some chart =>
      by_cases hempty : chart.head.isEmpty = true
      · -- what is added behind a token that no item waits for is empty
        obtain rfl := Chart.eq_blank_of_shift hshift hempty
        have hplaceholder : p.forget.placeholder =
            { chart := p.head.chart.blank, resume := lexer.origin } := by
          rw [placeholder, head_forget]
        simp only [hempty, if_true, Option.map_some, Halt.conclude, refuse]
        rw [slots_block hopen', hplaceholder]
      · have hindex : chart.index = p.forget.current + 1 :=
          (Chart.index_shift hshift).trans (congrArg (· + 1) (current_forget p).symm)
        have hrest := ih (p := p.forget.extend chart token.2) (h.forget.extend hindex token.2) hopen'
        rw [← extend_slots hopen' hindex token.2] at hrest
        have hgrammar : (p.forget.extend chart token.2).grammar = p.grammar := grammar_forget p
        have hkeep : (p.forget.extend chart token.2).keepHistory = p.keepHistory :=
          keepHistory_forget p
        rw [hgrammar, hkeep] at hrest
        simpa [hempty] using hrest

/-- **A table moves on with its parser.** The column under the cursor is there, and what is given up
is there. -/
theorem feed_slots (h : p.Placed) (fuel : Nat) (chunk : Chunk) :
    p.slots.feed p.grammar p.keepHistory lexer.origin fuel (lexer.read p.head.resume chunk) =
      (p.feed fuel chunk).map fun fed => .ok fed.parser.slots := by
  have hunblock : p.unblock.Placed := h.congr rfl rfl
  rw [Slots.feed, h.trim_slots, feed_eq_map, Option.map_map]
  exact hunblock.consume_slots rfl fuel chunk p.head.resume _ _

end Placed

/-- **The table of a parser, whatever it was told to do.** It ends with the last column, or with an
empty one behind that, and each of its columns is in its place. It ends with the last column behind
every chunk that is taken and wherever the parser goes back to. Feeding, saving and restoring find in
it what they look for. -/
theorem table_leads {keepHistory : Bool} {bound : Nat} {fresh : Parser lexer}
    (hstart : start lexer g keepHistory bound = some fresh) (h : fresh.Leads p) :
    (p.table.size = p.current + 1 ∨ p.table.size = p.current + 2 ∧
      ∃ b, p.table[p.current + 1]? = some (some b) ∧ b.chart.head = {}) ∧
    (∃ b, p.table[p.current]? = some (some b) ∧ p.slots.head = .ok b ∧ p.save = b) ∧
    (∀ (j : Nat) (b : Bookmark Mark), p.table[j]? = some (some b) → b.index = j) ∧
    (∀ fuel chunk fed, p.feed fuel chunk = some fed → fed.error = none →
      fed.parser.table.size = fed.parser.current + 1) ∧
    (∀ i q, p.rewind i = .ok q → q.table.size = q.current + 1) ∧
    (∀ b, (p.restore b).table.size = (p.restore b).current + 1) ∧
    (∀ fuel chunk,
      p.slots.feed p.grammar p.keepHistory lexer.origin fuel (lexer.read p.head.resume chunk) =
        (p.feed fuel chunk).map fun fed => .ok fed.parser.slots) ∧
    (∀ b, p.slots.restore b = .ok (p.restore b).slots) ∧
    p.slots.finish p.grammar.start = p.finish := by
  have hp : p.Placed := h.placed (placed_of_start hstart)
  have hsize : ∀ {q : Parser lexer}, q.Placed → q.blocked = false →
      q.table.size = q.current + 1 := by
    intro q hq hopen
    rw [hq.size_table, hopen]
    rfl
  refine ⟨?_, ⟨p.head, hp.getElem?_current, hp.head_slots, rfl⟩, ?_, ?_, ?_, ?_, hp.feed_slots,
    restore_slots p, finish_slots p⟩
  · cases hblocked : p.blocked with
    | false => exact .inl (hsize hp hblocked)
    | true =>
      refine .inr ⟨by rw [hp.size_table, hblocked]; rfl, p.placeholder, ?_, rfl⟩
      rw [getElem?_table, hp.size_past]
      simp [hblocked]
  · intro j b hb
    exact hp.index_of_bookmark? (Option.join_eq_some_iff.mpr hb)
  · intro fuel chunk fed hfeed herror
    refine hsize (hp.feed hfeed) ?_
    rw [blocked_feed hfeed, herror]
    rfl
  · intro i q hrewind
    refine hsize (hp.rewind hrewind) ?_
    obtain ⟨-, b, -, rfl⟩ := rewind_eq_ok_iff.mp hrewind
    rfl
  · intro b
    exact hsize (hp.restore b) rfl

/-- A bookmark of another grammar at a column that was never reached, and input that is refused
there. -/
theorem table_leads_padded :
    ∃ (fresh p : Parser characters.toLexer) (b : Bookmark Position),
      start characters.toLexer padded false 20 = some fresh ∧ fresh.Leads p ∧ p.current = 2 ∧
        p.table[1]? = some none ∧ p.table.size = 4 ∧
          p.table[2]? = some (some b) ∧ p.slots.head = .ok b := by
  have hrun : (start characters.toLexer twoLines true 9).any (fun other =>
      (other.feed 9 "a\n").any fun taken =>
        (start characters.toLexer padded false 20).any fun fresh =>
          (feed 20 (fresh.restore taken.parser.save) "x").any fun fed =>
            fed.parser.current == 2 && (fed.parser.table[1]?).any Option.isNone &&
              fed.parser.table.size == 4) = true := by decide +kernel
  obtain ⟨other, -, hrun⟩ := (Option.any_eq_true _ _).mp hrun
  obtain ⟨taken, -, hrun⟩ := (Option.any_eq_true _ _).mp hrun
  obtain ⟨fresh, hfresh, hrun⟩ := (Option.any_eq_true _ _).mp hrun
  obtain ⟨fed, hfed, hresult⟩ := (Option.any_eq_true _ _).mp hrun
  simp only [Bool.and_eq_true, beq_iff_eq] at hresult
  obtain ⟨⟨hcurrent, hgap⟩, hsize⟩ := hresult
  obtain ⟨entry, hentry, hnone⟩ := (Option.any_eq_true _ _).mp hgap
  obtain rfl := Option.isNone_iff_eq_none.mp hnone
  have hleads : fresh.Leads fed.parser :=
    (Leads.refl.step (.restore taken.parser.save)).step (.feed hfed)
  obtain ⟨-, ⟨b, hb, hhead, -⟩, -⟩ := table_leads hfresh hleads
  exact ⟨fresh, fed.parser, b, hfresh, hleads, hcurrent, hentry, hsize, hcurrent ▸ hb, hhead⟩

end Parser

end Earley
