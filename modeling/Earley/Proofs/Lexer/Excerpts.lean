import Earley.Proofs.Lexer.Characters
import Earley.Proofs.Lexer.Places
import Earley.Proofs.Text.Lines

/-!
# Where excerpts point

The excerpt that shows a token has the line of the token as its last row, with the lines in front of
it above, and its caret stands under the first character of the token. A line feed has no character
there: the caret stands behind the line that it ends. This holds in every chunk and of every token
that is read there, and of the rest of the chunk that cannot be read, although of a line that began
in an earlier chunk only the end is shown while columns count from its beginning.

Whatever token an excerpt is asked for, one that is not of the chunk included, the lines to show are
looked up in their bounds, and their numbers are words.

## Main definitions

* `Excerpt.Points`: a text shows a place of a chunk
* `TextLexer.CountsBy`: the lexers, and how they count
* `Reading.returned`: the tokens of a reading, with the one that a report is about
* `Excerpt.wordRows?`: the rows of an excerpt with every index and every number checked

## Main results

* `Excerpt.rows_around`, `Excerpt.caret_around`: the excerpt of a place
* `Excerpt.points_render`: its text shows the place
* `TextLexer.CountsBy.placed`: the places of tokens
* `Excerpt.wordRows?_eq`: nothing is out of bounds
* `Excerpt.locate_points`: all excerpts point at their tokens
-/

namespace Earley

namespace Excerpt

variable {start : Position} {before behind : List Char} {t : Token} {headline : String}

/-! ## Texts that point -/

/-- The line above an excerpt. -/
def heading (headline : String) (t : Token) : String :=
  headline ++ " at line " ++ toString t.line ++ " col " ++ toString t.col ++ ":"

/-- The line of a row, its number set to the right in a margin. -/
def rowText (margin : Nat) (row : Nat × List Char) : String :=
  "".pushn ' ' (margin - (toString row.1).length) ++ toString row.1 ++ " " ++ String.ofList row.2

/-- The line with a caret under the character at a place of the line above. -/
def caretText (place : Nat) : String :=
  "".pushn ' ' place ++ "^"

/-- **A text shows a place** of a chunk, where a token stands with some characters in front of it
and others from it on. -/
structure Points (start : Position) (before behind : List Char) (t : Token)
    (headline text : String) (rows : List (Nat × List Char)) (margin : Nat) : Prop where
  /-- The text has a heading and a blank line, the rows, and a line with the caret. -/
  text_eq : text = String.join ((heading headline t :: "" :: rows.map (rowText margin) ++
    [caretText (margin + 1 + (before.rtakeWhile (· ≠ '\n')).length)]).map (· ++ "\n"))
  /-- The rows are consecutive lines of the chunk with their numbers. -/
  isInfix_rows : rows <:+: start.numbered (before ++ behind)
  length_rows : rows.length = min 5 (before.count '\n' + 1)
  /-- The last row is the line of the token, as much of it as is in the chunk. -/
  getLast?_rows : rows.getLast? = some (t.line,
    before.rtakeWhile (· ≠ '\n') ++ behind.takeWhile (· ≠ '\n'))
  /-- The margin has room for all numbers. -/
  length_le_margin : ∀ row ∈ rows, (toString row.1).length ≤ margin
  /-- The caret is under the first character of the token, or behind the line that it ends. -/
  under : ∃ lead,
    (rowText margin (t.line, before.rtakeWhile (· ≠ '\n') ++ behind.takeWhile (· ≠ '\n'))).toList =
        lead ++ behind.takeWhile (· ≠ '\n') ∧
      lead.length = margin + 1 + (before.rtakeWhile (· ≠ '\n')).length ∧
      (behind.takeWhile (· ≠ '\n')).head? = t.literal.toList.head?.filter (· ≠ '\n')

/-! ## The excerpt of a place -/

/-- The line of a place is not outside the chunk. -/
theorem row_eq (hline : t.line = start.line + before.count '\n') :
    min (t.line - start.line) ((Text.lines (before ++ behind)).length - 1) = before.count '\n' := by
  rw [Text.length_lines, List.count_append]
  omega

theorem getElem?_numberedTo (last : Nat) (rows : List (List Char)) (i : Nat) :
    (numberedTo last rows)[i]? = rows[i]?.map fun row => (last + 1 + i - rows.length, row) := by
  rw [numberedTo, List.getElem?_map, List.getElem?_zipIdx, Option.map_map, Nat.zero_add]
  rfl

/-- **The rows of the excerpt of a place** are the line of the place and the lines in front of it,
with their numbers. -/
theorem rows_around (hline : t.line = start.line + before.count '\n') :
    (around (before ++ behind) start t).rows =
      ((start.numbered (before ++ behind)).take (before.count '\n' + 1)).drop
        (before.count '\n' - linesBefore) := by
  have hlength : (Text.lines (before ++ behind)).length =
      (before ++ behind).count '\n' + 1 := Text.length_lines _
  rw [List.count_append] at hlength
  show numberedTo t.line _ = _
  rw [row_eq hline]
  apply List.ext_getElem?
  intro i
  rw [getElem?_numberedTo, List.getElem?_drop, List.getElem?_drop, List.getElem?_take,
    List.getElem?_take, List.length_drop, List.length_take, Position.numbered,
    List.getElem?_mapIdx]
  split
  · -- the numbers count up to that of the last row
    refine Option.map_congr fun row _ => Prod.ext ?_ rfl
    show t.line + 1 + i - _ = _
    omega
  · rfl

/-- **The caret of the excerpt of a place** is behind the characters in front of the place. -/
theorem caret_around (hline : t.line = start.line + before.count '\n')
    (hcol : t.col = 1 + (before.rtakeWhile (· ≠ '\n')).length +
      if '\n' ∈ before then 0 else start.col) :
    (around (before ++ behind) start t).caret = (before.rtakeWhile (· ≠ '\n')).length + 1 := by
  show (if _ = 0 then t.col - start.col else t.col) = _
  rw [row_eq hline, hcol]
  by_cases hfeed : '\n' ∈ before
  · have hcount : before.count '\n' ≠ 0 := Nat.ne_of_gt (List.count_pos_iff.mpr hfeed)
    rw [if_neg hcount, if_pos hfeed]
    omega
  · -- the line began in front of the chunk
    rw [if_pos (List.count_eq_zero_of_not_mem hfeed), if_neg hfeed]
    omega

/-! ## The text of an excerpt -/

theorem toList_blanks (n : Nat) : ("".pushn ' ' n).toList = List.replicate n ' ' := by
  induction n with
  | zero => rfl
  | succ n ih =>
    have hpush : "".pushn ' ' (n + 1) = ("".pushn ' ' n).push ' ' := by
      simp [String.pushn, Nat.repeat]
    rw [hpush, String.toList_push, ih, List.replicate_succ']

/-- The characters of a row behind its margin. -/
theorem exists_toList_rowText {margin n : Nat} (h : (toString n).length ≤ margin)
    (line : List Char) :
    ∃ lead, (rowText margin (n, line)).toList = lead ++ line ∧ lead.length = margin + 1 := by
  refine ⟨List.replicate (margin - (toString n).length) ' ' ++ (toString n).toList ++ [' '], ?_, ?_⟩
  · simp [rowText, toList_blanks]
  · rw [List.length_append, List.length_append, List.length_replicate, List.length_singleton,
      String.length_toList]
    omega

/-- Smaller numbers are not longer. -/
theorem length_toString_le {m n : Nat} (h : m ≤ n) :
    (toString m).length ≤ (toString n).length := by
  have hpos : 0 < (toString n).length := Nat.length_repr_pos
  have hlt : n < 10 ^ (toString n).length := (Nat.length_repr_le_iff hpos).mp (Nat.le_refl _)
  exact (Nat.length_repr_le_iff hpos).mpr (Nat.lt_of_le_of_lt h hlt)

/-- The text of an excerpt line by line. -/
theorem render_eq {e : Excerpt} (hne : e.rows ≠ []) (hline : e.line = t.line)
    (hcol : e.col = t.col) (headline : String) :
    e.render headline = String.join ((heading headline t :: "" ::
      e.rows.map (rowText e.digits) ++ [caretText (e.digits + e.caret)]).map (· ++ "\n")) := by
  have hrows : "\n".intercalate (e.rows.map (rowText e.digits)) ++ "\n" =
      String.join ((e.rows.map (rowText e.digits)).map (· ++ "\n")) :=
    Text.intercalate_append_feed (by simpa using hne)
  have hsame : e.rows.map e.renderRow = e.rows.map (rowText e.digits) := rfl
  have hblank (text : String) : ":\n" ++ ("\n" ++ text) = ":\n\n" ++ text := by
    rw [← String.append_assoc]
    rfl
  rw [render, hsame, hline, hcol]
  simp only [List.map_append, List.map_cons, List.map_nil, List.cons_append, String.join_cons,
    String.join_append, ← hrows, heading, caretText]
  simp [String.append_assoc, hblank]

/-! ## The excerpt shows the place -/

/-- The excerpt of a place has as many rows as there are lines up to that of the place, but not more
than five. -/
theorem length_rows_around (hline : t.line = start.line + before.count '\n') :
    (around (before ++ behind) start t).rows.length =
      before.count '\n' + 1 - (before.count '\n' - linesBefore) := by
  have hrow := (List.getElem?_eq_some_iff.mp (start.getElem?_numbered before behind)).1
  rw [rows_around hline, List.length_drop, List.length_take]
  omega

/-- The last row of the excerpt of a place is the line of the place. -/
theorem getLast?_rows_around (hline : t.line = start.line + before.count '\n') :
    (around (before ++ behind) start t).rows.getLast? = some (t.line,
      before.rtakeWhile (· ≠ '\n') ++ behind.takeWhile (· ≠ '\n')) := by
  have hlast : before.count '\n' - linesBefore + (before.count '\n' + 1 -
      (before.count '\n' - linesBefore) - 1) = before.count '\n' := by
    omega
  rw [List.getLast?_eq_getElem?, length_rows_around hline, rows_around hline, List.getElem?_drop,
    hlast, List.getElem?_take_of_lt (Nat.lt_succ_self _), start.getElem?_numbered, hline]

/-- The rows of the excerpt of a place have numbers up to that of the place. -/
theorem le_of_mem_rows_around {row : Nat × List Char}
    (hline : t.line = start.line + before.count '\n')
    (hrow : row ∈ (around (before ++ behind) start t).rows) : row.1 ≤ t.line := by
  rw [rows_around hline] at hrow
  obtain ⟨i, hi⟩ := List.getElem?_of_mem (List.mem_of_mem_drop hrow)
  rw [List.getElem?_take, Position.numbered, List.getElem?_mapIdx] at hi
  split at hi
  · obtain ⟨line, -, rfl⟩ := Option.map_eq_some_iff.mp hi
    show start.line + i ≤ t.line
    omega
  · cases hi

/-- A token begins with the first character on its line behind its place, unless that is the end of
the line. -/
theorem head?_takeWhile_of_literal (hliteral : t.literal.toList <+: behind) (hne : t.literal ≠ "") :
    (behind.takeWhile (· ≠ '\n')).head? = t.literal.toList.head?.filter (· ≠ '\n') := by
  obtain ⟨after, rfl⟩ := hliteral
  obtain ⟨c, rest, hc⟩ := List.exists_cons_of_ne_nil (String.toList_eq_nil_iff.not.mpr hne)
  rw [hc, List.cons_append, List.head?_cons, List.takeWhile_cons, Option.filter_some]
  split <;> rfl

/-- **The text of the excerpt of a place shows the place.** -/
theorem points_render (hline : t.line = start.line + before.count '\n')
    (hcol : t.col = 1 + (before.rtakeWhile (· ≠ '\n')).length +
      if '\n' ∈ before then 0 else start.col)
    (hliteral : t.literal.toList <+: behind) (hne : t.literal ≠ "") (headline : String) :
    Points start before behind t headline
      ((around (before ++ behind) start t).render headline)
      (around (before ++ behind) start t).rows (toString t.line).length where
  text_eq := by
    have hrows : (around (before ++ behind) start t).rows ≠ [] := by
      rw [← List.length_pos_iff, length_rows_around hline]
      omega
    rw [render_eq hrows rfl rfl, caret_around hline hcol, Nat.add_assoc _ 1, Nat.add_comm 1]
    rfl
  isInfix_rows := by
    rw [rows_around hline]
    exact (List.drop_suffix _ _).isInfix.trans (List.take_prefix _ _).isInfix
  length_rows := by
    rw [length_rows_around hline, linesBefore]
    omega
  getLast?_rows := getLast?_rows_around hline
  length_le_margin := fun _ hrow => length_toString_le (le_of_mem_rows_around hline hrow)
  under := by
    obtain ⟨lead, hlead, hwidth⟩ := exists_toList_rowText (Nat.le_refl (toString t.line).length)
      (before.rtakeWhile (· ≠ '\n') ++ behind.takeWhile (· ≠ '\n'))
    refine ⟨lead ++ before.rtakeWhile (· ≠ '\n'), ?_, ?_, head?_takeWhile_of_literal hliteral hne⟩
    · rw [hlead, List.append_assoc]
    · rw [List.length_append, hwidth]

/-- The end of a line that began in an earlier chunk, and the line below. -/
example : (around "é \n'x".toList { line := 3, col := 4 } { value := "'x", line := 4 }).render
    "Open quote" = "Open quote at line 4 col 1:\n\n3 é \n4 'x\n  ^\n" := by
  decide +kernel

end Excerpt

/-! ## The places of tokens -/

/-- **The tokens of a reading**, and the one that its report is about if it has one. -/
def Reading.returned {Mark : Type} (reading : Reading Mark) : List Token :=
  reading.tokens.map Prod.fst ++ (reading.error.bind LexError.token).toList

/-- **The lexers of plain text**, and how they count. -/
inductive TextLexer.CountsBy : TextLexer → Ruler → Prop
  | characters : CountsBy characters Characters.ruler
  | words : CountsBy words Words.ruler

/-- **A token has a place** in a chunk, and what is behind it begins with the source text. -/
structure Token.Placed (ruler : Ruler) (start : Position) (before behind : List Char) (t : Token) :
    Prop where
  isPrefix_literal : t.literal.toList <+: behind
  literal_ne : t.literal ≠ ""
  offset : t.offset = (start.behind ruler before).offset
  line : t.line = start.line + before.count '\n'
  /-- The column counts from the last line feed, or from where the line began in an earlier
  chunk. -/
  col : t.col = 1 + (before.rtakeWhile (· ≠ '\n')).length +
    if '\n' ∈ before then 0 else start.col

namespace Reading

variable {Mark : Type} {reading : Reading Mark} {t : Token}

theorem mem_returned : t ∈ reading.returned ↔
    (∃ mark, (t, mark) ∈ reading.tokens) ∨ ∃ e ∈ reading.error, t ∈ e.token := by
  simp [returned, Option.bind_eq_some_iff]

end Reading

variable {start : Position} {chunk before source : String} {t : Token}

/-- A token with the place of its source text has a place in front of that. -/
theorem Sited.placed (h : Sited start chunk before t.literal t) (hne : t.literal ≠ "") :
    ∃ before behind, chunk.toList = before ++ behind ∧
      t.Placed Words.ruler start before behind := by
  obtain ⟨after, hchunk⟩ := h.chunk_eq
  refine ⟨before.toList, t.literal.toList ++ after.toList, ?_, ?_⟩
  · rw [hchunk, String.toList_append, String.toList_append, List.append_assoc]
  · refine ⟨List.prefix_append _ _, hne, ?_, h.line, h.col⟩
    rw [h.offset, Words.offset_behind, String.ofList_toList]

/-- The places of words, and of what cannot be read. -/
theorem Words.placed_of_mem (h : t ∈ (words.toLexer.read start chunk).returned) :
    ∃ before behind, chunk.toList = before ++ behind ∧
      t.Placed ruler start before behind := by
  rw [read_eq, ← Alphabet.reading_unicode] at h
  rcases Reading.mem_returned.mp h with ⟨mark, hmem⟩ | ⟨e, he, ht⟩
  · obtain ⟨before, hsited⟩ := Alphabet.sited_of_mem hmem
    exact hsited.placed (Alphabet.literal_ne_of_mem hmem)
  · obtain ⟨t', ht', hreported, -⟩ := Alphabet.reported_of_error he
    obtain rfl : t = t' := Option.some.inj (ht.symm.trans ht')
    obtain ⟨before, -, hsited⟩ := hreported.sited
    have hliteral : t.literal = t.value := by
      rw [Token.literal, hreported.text, Option.getD_none]
    rw [← hliteral] at hsited
    refine hsited.placed fun hempty => ?_
    -- the report has at least the mark that opens the quotation
    obtain ⟨c, rest, fault, hvalue, -⟩ := hreported.fails
    rw [← hliteral, hempty] at hvalue
    exact nomatch hvalue

/-- Columns of characters count one by one as long as they fit in a word. -/
theorem Characters.iterate_nextCol_of_lt (m n : Nat) (h : m + n < UInt64.size) :
    ruler.nextCol^[n] m = m + n := by
  induction n with
  | zero => rfl
  | succ n ih =>
    rw [Function.iterate_succ_apply', ih (by omega)]
    exact Nat.mod_eq_of_lt h

/-- The places of characters. -/
theorem Characters.placed_of_mem (hfits : start.col + chunk.length < UInt64.size)
    (h : t ∈ (characters.toLexer.read start chunk).returned) :
    ∃ before behind, chunk.toList = before ++ behind ∧
      t.Placed ruler start before behind := by
  rw [read_eq] at h
  rcases Reading.mem_returned.mp h with ⟨mark, hmem⟩ | ⟨e, he, -⟩
  · obtain ⟨front, rest, hsplit⟩ := List.append_of_mem hmem
    obtain ⟨before, c, after, htext, -, rfl⟩ := exists_of_tokensFrom_eq hsplit
    have hliteral : (tokenAt (start.behind ruler before) c).literal.toList = [c] :=
      String.toList_singleton c
    refine ⟨before, c :: after, htext, ?_, ?_, rfl, ?_, ?_⟩
    · rw [hliteral]
      exact ⟨after, rfl⟩
    · intro hempty
      rw [hempty] at hliteral
      exact nomatch hliteral
    · exact Position.line_behind ruler start before
    · -- the characters in front of the token are fewer than those of the chunk
      have hlength := congrArg List.length htext
      have hle := (List.rtakeWhile_suffix (· ≠ '\n') before).length_le
      rw [String.length_toList, List.length_append, List.length_cons] at hlength
      show ruler.nextCol (start.behind ruler before).col = _
      rw [Position.col_behind, ← Function.iterate_succ_apply' ruler.nextCol, iterate_nextCol_of_lt]
      · omega
      · split <;> omega
  · exact nomatch he

/-- **The tokens of a reading have places** in the chunk, if its columns fit in words. -/
theorem TextLexer.CountsBy.placed {lexer : TextLexer} {ruler : Ruler}
    (hlexer : lexer.CountsBy ruler) (hfits : start.col + chunk.length < UInt64.size)
    (h : t ∈ (lexer.toLexer.read start chunk).returned) :
    ∃ before behind, chunk.toList = before ++ behind ∧ t.Placed ruler start before behind := by
  cases hlexer with
  | characters => exact Characters.placed_of_mem hfits h
  | words => exact Words.placed_of_mem h

namespace Excerpt

/-! ## Bounds -/

/-- The sum of two words, if it is a word. -/
def addWord? (a b : Nat) : Option Nat :=
  if a + b < UInt64.size then some (a + b) else none

/-- The difference of two words, if it is a word. -/
def subWord? (a b : Nat) : Option Nat :=
  if b ≤ a then some (a - b) else none

/-- The lines from one index to another, if both are in bounds and in order. -/
def slice? (rows : List (List Char)) (first last : Nat) : Option (List (List Char)) :=
  if first ≤ last + 1 ∧ last < rows.length then
    some ((rows.take (last + 1)).drop first)
  else
    none

/-- **The rows of an excerpt** with every index and every number checked. -/
def wordRows? (chunk : List Char) (firstLine line : Nat) : Option (List (Nat × List Char)) := do
  let all := Text.lines chunk
  let row := min (line - firstLine) (all.length - 1)
  let shown ← slice? all (row - linesBefore) row
  shown.zipIdx.mapM fun (text, i) => do
    let next ← addWord? line 1
    let number ← subWord? (← addWord? next i) shown.length
    return (number, text)

/-- What is defined everywhere in a list is defined for the list. -/
theorem mapM_eq_some_map {α β : Type} {f : α → Option β} {g : α → β} {items : List α}
    (h : ∀ a ∈ items, f a = some (g a)) : items.mapM f = some (items.map g) := by
  induction items with
  | nil => rfl
  | cons a rest ih =>
    obtain ⟨ha, hrest⟩ := List.forall_mem_cons.mp h
    rw [List.mapM_cons, ha, ih hrest]
    rfl

/-- **Nothing is out of bounds**, whatever token an excerpt is asked for. -/
theorem wordRows?_eq {chunk : List Char} (hline : t.line + 5 < UInt64.size) :
    wordRows? chunk start.line t.line = some (around chunk start t).rows := by
  let all := Text.lines chunk
  let row := min (t.line - start.line) (all.length - 1)
  have hrow : row < all.length := by
    have hpos : 0 < all.length := List.length_pos_iff.mpr (Text.lines_ne_nil chunk)
    omega
  have hslice : slice? all (row - linesBefore) row =
      some ((all.take (row + 1)).drop (row - linesBefore)) :=
    if_pos ⟨by omega, hrow⟩
  have hlength : ((all.take (row + 1)).drop (row - linesBefore)).length =
      row + 1 - (row - linesBefore) := by
    rw [List.length_drop, List.length_take, Nat.min_eq_left hrow]
  show (slice? all (row - linesBefore) row).bind _ = _
  rw [hslice]
  apply mapM_eq_some_map
  rintro ⟨text, i⟩ hmem
  -- there are at most five rows, and not more than the number of the last one says
  have hi := (List.mem_zipIdx' hmem).1
  rw [hlength, linesBefore] at hi
  have hnext : addWord? t.line 1 = some (t.line + 1) := if_pos (by omega)
  have hsum : addWord? (t.line + 1) i = some (t.line + 1 + i) := if_pos (by omega)
  have hdiff : subWord? (t.line + 1 + i) ((all.take (row + 1)).drop (row - linesBefore)).length =
      some (t.line + 1 + i - ((all.take (row + 1)).drop (row - linesBefore)).length) :=
    if_pos (by omega)
  simp only [hnext, hsum, hdiff, Option.bind_eq_bind, Option.bind_some]
  rfl

/-! ## Excerpts point at their tokens -/

/-- **Excerpts point at their tokens.** A token that is read in a chunk, or that a report is about,
has a place there, and the text that locates it shows that place. The rows of an excerpt are in
bounds for any token. -/
theorem locate_points :
    (∀ lexer ruler, TextLexer.CountsBy lexer ruler → ∀ (start : Position) (chunk : String),
      start.col + chunk.length < UInt64.size →
      ∀ t ∈ (lexer.toLexer.read start chunk).returned, ∃ before behind,
        chunk.toList = before ++ behind ∧ t.Placed ruler start before behind ∧
        ∀ stand headline, ∃ rows margin, Points start before behind t headline
          (lexer.toLexer.locate chunk start stand t headline) rows margin) ∧
    ∀ (chunk : List Char) (start : Position) (t : Token), t.line + 5 < UInt64.size →
      wordRows? chunk start.line t.line = some (around chunk start t).rows := by
  refine ⟨?_, fun chunk start t hline => wordRows?_eq hline⟩
  intro lexer ruler hlexer start chunk hfits t ht
  obtain ⟨before, behind, hchunk, hplaced⟩ := hlexer.placed hfits ht
  refine ⟨before, behind, hchunk, hplaced, fun stand headline => ?_⟩
  show ∃ rows margin, Points start before behind t headline
    ((around chunk.toList start t).render headline) rows margin
  rw [hchunk]
  exact ⟨_, _, points_render hplaced.line hplaced.col hplaced.isPrefix_literal hplaced.literal_ne
    headline⟩

/-- A quotation that is not closed, a line feed on a line that began in an earlier chunk, and a line
behind the end of the chunk. -/
theorem locate_points_torn :
    let start : Position := { line := 3, col := 4, offset := 10 }
    let torn : Token :=
      { value := "'x", kind := some "quote", offset := 14, line := 4, col := 1 }
    let feed : Token := { value := "\n", offset := 12, line := 3, col := 7 }
    (∃ before behind, "é \n'x".toList = before ++ behind ∧
      torn.Placed Words.ruler start before behind ∧ ∃ rows margin,
        Points start before behind torn "Open quote"
          (words.toLexer.locate "é \n'x" start start torn "Open quote") rows margin) ∧
    (∃ before behind, "é \n'x".toList = before ++ behind ∧
      feed.Placed Characters.ruler start before behind ∧ ∃ rows margin,
        Points start before behind feed "Line feed"
          (characters.toLexer.locate "é \n'x" start start feed "Line feed") rows margin) ∧
    wordRows? "é \n'x".toList start.line 9 =
      some (around "é \n'x".toList start { torn with line := 9 }).rows := by
  intro start torn feed
  have hfits : start.col + "é \n'x".length < UInt64.size := by decide +kernel
  have htorn : torn ∈ (words.toLexer.read start "é \n'x").returned := by decide +kernel
  have hfeed : feed ∈ (characters.toLexer.read start "é \n'x").returned := by decide +kernel
  refine ⟨?_, ?_, ?_⟩
  · obtain ⟨before, behind, hchunk, hplaced, hpoints⟩ :=
      locate_points.1 words _ .words start _ hfits torn htorn
    exact ⟨before, behind, hchunk, hplaced, hpoints start "Open quote"⟩
  · obtain ⟨before, behind, hchunk, hplaced, hpoints⟩ :=
      locate_points.1 characters _ .characters start _ hfits feed hfeed
    exact ⟨before, behind, hchunk, hplaced, hpoints start "Line feed"⟩
  · exact locate_points.2 _ start { torn with line := 9 } (by decide)

end Excerpt

end Earley
