import Earley.Proofs.Lexer.Resumption
import Earley.Proofs.Text.Position

/-!
# Counting lines and columns

The places of the tokens of characters are those in the whole input, into whatever chunks it is cut
and wherever reading a chunk is broken off: the offset counts the characters in front, the line the
line feeds among them, and the column the characters behind the last of these.

Within a chunk it is enough to keep the index of the next character and the index behind the last
line feed. The column is the distance between the two. Where a line goes on from an earlier chunk,
it began in front of the chunk, at a negative index.

## Main definitions

* `Characters.tokenOf`: the token of the character at a place of a text
* `Lexer.takeAll`: what is taken of chunks of which some tokens are read
* `Characters.Counter`: lines and columns counted by index

## Main results

* `Characters.getElem?_tokensFrom`: the tokens of a text from a position on
* `Characters.takeAll_eq`: characters are read on wherever reading is broken off
* `Characters.Counter.drain_begin`: counting by index is counting step by step
* `Characters.read_placed`: the places of tokens are those in the whole input
-/

namespace Earley

/-- **What is taken of chunks** of which some tokens are read: of each chunk no more than a number
of tokens, and the next chunk is read from the mark behind them. -/
def Lexer.takeAll {Chunk Mark : Type} (lexer : Lexer Chunk Mark) :
    Mark → List (Chunk × Nat) → List (Token × Mark)
  | _, [] => []
  | start, (chunk, n) :: later =>
    let taken := (lexer.read start chunk).tokens.take n
    taken ++ lexer.takeAll (markBehind start taken) later

namespace Characters

variable {c : Char} {text : List Char}

/-! ## Places in a text -/

/-- **The token of the character at a place of a text.** -/
def tokenOf (text : List Char) (place : Nat) : Option Token :=
  text[place]?.map fun c =>
    { value := String.singleton c
      offset := place
      line := 1 + (text.take place).count '\n'
      col := 1 + ((text.take place).rtakeWhile (· ≠ '\n')).length }

/-- **The tokens of a text**: that of a character comes behind the characters in front of it. -/
theorem getElem?_tokensFrom (p : Position) (text : List Char) (n : Nat) :
    (tokensFrom p text)[n]? =
      text[n]?.map fun c => (tokenAt (p.behind ruler (text.take n)) c,
        p.behind ruler (text.take (n + 1))) := by
  induction text generalizing p n with
  | nil => rfl
  | cons c rest ih =>
    cases n with
    | zero => simp [tokensFrom]
    | succ n => simp [tokensFrom, ih]

/-- Offsets count characters. -/
theorem offset_behind (p : Position) (text : List Char) :
    (p.behind ruler text).offset = p.offset + text.length := by
  rw [Position.offset_behind]
  simp [ruler]

/-- Columns grow by one, up to the greatest word. -/
theorem iterate_nextCol (n : Nat) : ruler.nextCol^[n] 0 = n % UInt64.size := by
  induction n with
  | zero => rfl
  | succ n ih =>
    rw [Function.iterate_succ_apply', ih]
    exact Nat.mod_add_mod n UInt64.size 1

/-- **The place of a token in the input** is told by what stands in front of it, as long as columns
are words. -/
theorem tokenAt_behind (htext : text.length + 1 < UInt64.size) (c : Char) :
    tokenAt (Position.behind ruler {} text) c =
      { value := String.singleton c
        offset := text.length
        line := 1 + text.count '\n'
        col := 1 + (text.rtakeWhile (· ≠ '\n')).length } := by
  have hle : (text.rtakeWhile (· ≠ '\n')).length ≤ text.length :=
    (List.rtakeWhile_suffix _ _).length_le
  -- the columns of the line are too few to wrap
  have hcol : ruler.nextCol (Position.behind ruler {} text).col =
      1 + (text.rtakeWhile (· ≠ '\n')).length := by
    rw [Position.col_behind, ite_self, ← Function.iterate_succ_apply' ruler.nextCol,
      iterate_nextCol, Nat.mod_eq_of_lt (by omega), Nat.add_comm]
  rw [tokenAt, hcol, offset_behind, Position.line_behind, Nat.zero_add]

theorem tokenOf_eq (htext : text.length < UInt64.size) (place : Nat) :
    (tokensFrom {} text)[place]?.map Prod.fst = tokenOf text place := by
  rw [getElem?_tokensFrom, tokenOf, Option.map_map]
  cases hc : text[place]? with
  | none => rfl
  | some c =>
    obtain ⟨hplace, -⟩ := List.getElem?_eq_some_iff.mp hc
    have hfront : (text.take place).length = place := List.length_take_of_le hplace.le
    simp only [Option.map_some, Function.comp_apply]
    rw [tokenAt_behind (by omega), hfront]

/-! ## Broken off -/

/-- **Characters are read on** wherever reading is broken off. -/
theorem takeAll_eq (start : Position) (pieces : List (String × Nat)) :
    characters.toLexer.takeAll start pieces =
      tokensFrom start (pieces.flatMap fun piece => piece.1.toList.take piece.2) := by
  induction pieces generalizing start with
  | nil => rfl
  | cons piece later ih =>
    obtain ⟨chunk, n⟩ := piece
    rw [Lexer.takeAll, read_eq, List.flatMap_cons, tokensFrom_append]
    simp only [take_tokensFrom, markBehind_tokensFrom, ih]

/-! ## By index -/

/-- **Lines and columns counted by index** in a chunk. -/
structure Counter where
  chunk : List Char
  /-- The index of the next character. -/
  index : Nat
  line : Nat
  /-- The index behind the last line feed, negative if the line began in an earlier chunk. -/
  lineBreak : Int
  /-- The offset of the chunk. -/
  base : Nat

namespace Counter

/-- A counter at the beginning of a chunk. -/
def begin (start : Position) (chunk : String) : Counter where
  chunk := chunk.toList
  index := 0
  line := start.line
  lineBreak := -start.col
  base := start.offset

/-- The column in front of the next character, as a word. -/
def col (counter : Counter) : Nat :=
  ((counter.index - counter.lineBreak) % UInt64.size).toNat

/-- The mark to read on from. -/
def mark (counter : Counter) : Position where
  line := counter.line
  col := counter.col
  offset := counter.base + counter.index

/-- One character further on. -/
def advance (counter : Counter) : Counter :=
  { counter with index := counter.index + 1 }

/-- The next line. -/
def breakLine (counter : Counter) : Counter :=
  { counter with line := counter.line + 1, lineBreak := counter.index }

/-- **The next token**: its column is that behind its character, and a line feed is still on the
line that it ends. -/
def next (counter : Counter) : Option (Token × Counter) :=
  counter.chunk[counter.index]?.map fun c =>
    ({ value := String.singleton c
       offset := counter.base + counter.index
       line := counter.line
       col := counter.advance.col },
      if c = '\n' then counter.advance.breakLine else counter.advance)

variable {counter later : Counter} {t : Token}

theorem col_advance (counter : Counter) : counter.advance.col = ruler.nextCol counter.col := by
  -- a word that wraps does so on both sides
  simp only [col, advance, ruler, UInt64.size]
  omega

theorem col_breakLine (counter : Counter) : counter.breakLine.col = 0 := by
  simp [col, breakLine]

/-- **A character is counted** as the position is moved behind it. -/
theorem next_eq_some (h : counter.next = some (t, later)) :
    ∃ c, counter.chunk.drop counter.index = c :: later.chunk.drop later.index ∧
      t = tokenAt counter.mark c ∧ later.mark = counter.mark.step ruler c := by
  obtain ⟨c, hc, hresult⟩ := Option.map_eq_some_iff.mp h
  obtain ⟨rfl, rfl⟩ := Prod.mk.inj hresult
  obtain ⟨hindex, rfl⟩ := List.getElem?_eq_some_iff.mp hc
  refine ⟨counter.chunk[counter.index], ?_, ?_, ?_⟩
  · rw [List.drop_eq_getElem_cons hindex]
    split <;> rfl
  · rw [tokenAt, col_advance]
    rfl
  · unfold Position.step
    split
    · rw [mark, col_breakLine]
      rfl
    · rw [mark, col_advance]
      rfl

theorem next_lt (h : counter.next = some (t, later)) :
    later.chunk.length - later.index < counter.chunk.length - counter.index := by
  obtain ⟨c, hdrop, -, -⟩ := next_eq_some h
  have hlength := congrArg List.length hdrop
  rw [List.length_cons, List.length_drop, List.length_drop] at hlength
  omega

/-- All tokens from a counter on, each with the mark behind it. -/
def drain (counter : Counter) : Reading Position :=
  match h : counter.next with
  | none => { tokens := [], stand := counter.mark }
  | some (t, later) =>
    have := next_lt h
    let rest := drain later
    { rest with tokens := (t, later.mark) :: rest.tokens }
termination_by counter.chunk.length - counter.index

theorem drain_eq (counter : Counter) :
    counter.drain =
      { tokens := tokensFrom counter.mark (counter.chunk.drop counter.index)
        stand := counter.mark.behind ruler (counter.chunk.drop counter.index) } := by
  fun_induction drain counter with
  | case1 counter h =>
    have hend : counter.chunk.drop counter.index = [] := by
      simpa [next] using h
    rw [hend]
    rfl
  | case2 counter t later h _ rest ih =>
    obtain ⟨c, hdrop, rfl, hmark⟩ := next_eq_some h
    rw [hdrop, show rest = _ from ih, hmark]
    rfl

/-- A counter at the beginning of a chunk stands at the mark where the chunk begins. -/
theorem mark_begin {start : Position} (hcol : start.col < UInt64.size) (chunk : String) :
    (begin start chunk).mark = start := by
  have hword : (begin start chunk).col = start.col := by
    simp only [col, begin, UInt64.size] at hcol ⊢
    omega
  rw [mark, hword]
  rfl

/-- **Counting by index is counting step by step.** -/
theorem drain_begin {start : Position} (hcol : start.col < UInt64.size) (chunk : String) :
    (begin start chunk).drain = characters.toLexer.read start chunk := by
  rw [drain_eq, mark_begin hcol, read_eq]
  rfl

end Counter

/-! ## Places in the input -/

/-- **The places of tokens are those in the whole input**, if it is cut into chunks, and if reading
a chunk is broken off behind some token. Counting by index within each chunk gives the same. -/
theorem read_placed :
    (∀ chunks, (String.join chunks).length < UInt64.size →
      (characters.toLexer.readAll {} chunks).error = none ∧
      ∀ place, (characters.toLexer.readAll {} chunks).tokens[place]?.map Prod.fst =
        tokenOf (String.join chunks).toList place) ∧
    (∀ pieces : List (String × Nat),
      (pieces.flatMap fun piece => piece.1.toList.take piece.2).length < UInt64.size →
      ∀ place, (characters.toLexer.takeAll {} pieces)[place]?.map Prod.fst =
        tokenOf (pieces.flatMap fun piece => piece.1.toList.take piece.2) place) ∧
    ∀ start chunk, start.col < UInt64.size →
      (Counter.begin start chunk).drain = characters.toLexer.read start chunk := by
  refine ⟨?chunks, ?pieces, fun start chunk hcol => Counter.drain_begin hcol chunk⟩
  case chunks =>
    intro chunks hlength
    rw [readAll_eq, read_eq]
    exact ⟨rfl, tokenOf_eq (by rwa [String.length_toList])⟩
  case pieces =>
    intro pieces hlength place
    rw [takeAll_eq, tokenOf_eq hlength]

/-- A line that goes on behind an empty chunk and ends there, and one that is broken off. -/
theorem read_placed_broken :
    ((String.join ["ab", "", "\nc"]).length < UInt64.size ∧
      (characters.toLexer.readAll {} ["ab", "", "\nc"]).tokens[2]?.map Prod.fst =
        some { value := "\n", offset := 2, line := 1, col := 3 }) ∧
    (([("abc", 1), ("d\ne", 3)].flatMap fun piece => piece.1.toList.take piece.2).length <
        UInt64.size ∧
      (characters.toLexer.takeAll {} [("abc", 1), ("d\ne", 3)])[3]?.map Prod.fst =
        some { value := "e", offset := 3, line := 2, col := 1 }) ∧
    (Counter.begin { line := 2, col := 5, offset := 9 } "x\ny").drain =
      characters.toLexer.read { line := 2, col := 5, offset := 9 } "x\ny" := by
  have hchunks : (String.join ["ab", "", "\nc"]).length < UInt64.size := by decide
  have hpieces : ([("abc", 1), ("d\ne", 3)].flatMap fun piece =>
      piece.1.toList.take piece.2).length < UInt64.size := by decide
  refine ⟨⟨hchunks, ?_⟩, ⟨hpieces, ?_⟩, read_placed.2.2 _ _ (by decide)⟩
  · rw [(read_placed.1 _ hchunks).2 2]
    decide +kernel
  · rw [read_placed.2.1 _ hpieces 3]
    decide +kernel

end Characters

end Earley
