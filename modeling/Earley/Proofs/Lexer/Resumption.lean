import Earley.Proofs.Lexer.Characters
import Earley.Proofs.Lexer.Words
import Mathlib.Data.List.Induction

/-!
# Reading on

A text that comes in chunks is read chunk by chunk, each from the mark where the chunk before it
ended. Characters are read in this way wherever the text is cut. Words are, if the text is cut next
to blanks only: what is read of the chunks is then what is read of the text in one piece, down to
the place of every token, the report of a quotation that cannot be read, and the mark in the end.
The blanks at the end of a chunk are passed over, so the mark there is the one behind the whole
chunk.

## Main definitions

* `Reading.andThen`: a reading, and another one from where it ended
* `Lexer.readAll`: what comes of reading chunk after chunk
* `Words.Seamed`: chunks that meet at blanks

## Main results

* `Characters.readAll_eq`: characters are read on wherever the text is cut
* `Words.stand_reading`: words are read up to the end of the text
* `Words.readAll_eq`: words are read on where chunks meet at blanks
* `Words.read_resumed`: so are those of two chunks
-/

namespace Earley

variable {Chunk Mark : Type}

/-- **A reading, and another one from where it ended.** -/
def Reading.andThen (first : Reading Mark) (later : Mark → Reading Mark) : Reading Mark :=
  { later first.stand with tokens := first.tokens ++ (later first.stand).tokens }

/-- **What comes of reading chunk after chunk**, up to the first that cannot be read. -/
def Lexer.readAll (lexer : Lexer Chunk Mark) (start : Mark) : List Chunk → Reading Mark
  | [] => { tokens := [], stand := start }
  | chunk :: later =>
    match (lexer.read start chunk).error with
    | some _ => lexer.read start chunk
    | none => (lexer.read start chunk).andThen fun mark => lexer.readAll mark later

namespace Lexer

variable {lexer : Lexer Chunk Mark} {start : Mark} {chunk : Chunk}

theorem readAll_cons_of_error_eq_none (h : (lexer.read start chunk).error = none)
    (later : List Chunk) :
    lexer.readAll start (chunk :: later) =
      (lexer.read start chunk).andThen fun mark => lexer.readAll mark later := by
  rw [readAll, h]

theorem readAll_cons_of_error_ne_none (h : (lexer.read start chunk).error ≠ none)
    (later : List Chunk) : lexer.readAll start (chunk :: later) = lexer.read start chunk := by
  obtain ⟨e, he⟩ := Option.ne_none_iff_exists'.mp h
  rw [readAll, he]

/-- **One more chunk** is read from where the others ended, unless one of them cannot be read. -/
theorem readAll_concat (lexer : Lexer Chunk Mark) (start : Mark) (chunks : List Chunk)
    (last : Chunk) :
    lexer.readAll start (chunks ++ [last]) =
      if (lexer.readAll start chunks).error = none then
        (lexer.readAll start chunks).andThen fun mark => lexer.read mark last
      else lexer.readAll start chunks := by
  induction chunks generalizing start with
  | nil =>
    have hnil : lexer.readAll start [] = { tokens := [], stand := start } := rfl
    rw [List.nil_append, hnil, if_pos rfl]
    cases h : (lexer.read start last).error with
    | none =>
      rw [readAll_cons_of_error_eq_none h]
      simp [Reading.andThen, readAll, ← h]
    | some e =>
      rw [readAll_cons_of_error_ne_none (by simp [h])]
      simp [Reading.andThen]
  | cons first later ih =>
    rw [List.cons_append]
    by_cases h : (lexer.read start first).error = none
    · rw [readAll_cons_of_error_eq_none h, readAll_cons_of_error_eq_none h]
      by_cases hlater : (lexer.readAll (lexer.read start first).stand later).error = none
      · simp [Reading.andThen, ih, hlater]
      · simp [Reading.andThen, ih, hlater]
    · rw [readAll_cons_of_error_ne_none h, readAll_cons_of_error_ne_none h, if_neg h]

/-- Chunks that can be read are read without the last one too. -/
theorem error_readAll_dropLast {chunks : List Chunk}
    (h : (lexer.readAll start chunks).error = none) :
    (lexer.readAll start chunks.dropLast).error = none := by
  rcases List.eq_nil_or_concat chunks with rfl | ⟨front, last, rfl⟩
  · rfl
  · rw [List.concat_eq_append] at h ⊢
    rw [List.dropLast_concat]
    by_cases hfront : (lexer.readAll start front).error = none
    · exact hfront
    · rwa [readAll_concat, if_neg hfront] at h

end Lexer

/-! ## Characters -/

/-- **Characters are read on** wherever the text is cut. -/
theorem Characters.readAll_eq (start : Position) (chunks : List String) :
    characters.toLexer.readAll start chunks =
      characters.toLexer.read start (String.join chunks) := by
  induction chunks generalizing start with
  | nil => simp [Lexer.readAll, read_eq, tokensFrom]
  | cons chunk later ih =>
    have herror : (characters.toLexer.read start chunk).error = none := by rw [read_eq]
    rw [Lexer.readAll_cons_of_error_eq_none herror]
    simp [Reading.andThen, ih, read_eq, tokensFrom_append, Position.behind_append]

namespace Words

variable {start : Position} {chunks : List String}

/-! ## Words -/

/-- **Words are read up to the end of the text**, blanks included. -/
theorem stand_reading {text : List Char} (herror : (reading start text).error = none) :
    (reading start text).stand = start.behind ruler text := by
  have hcut := cut text
  -- blanks move the mark as lexemes do, those at the end too
  induction hcut generalizing start with
  | nil => rw [reading_nil, Position.behind_nil]
  | blank hc _ ih =>
    rw [reading_blank hc] at herror ⊢
    rw [ih herror, Position.behind_cons]
  | fault hc hread =>
    rw [reading_fault hc hread] at herror
    exact nomatch herror
  | word hc hread _ ih =>
    rw [reading_word hc hread] at herror ⊢
    rw [← Lexeme.text_append_of_read hread, Position.behind_append]
    exact ih herror

/-- A text that is cut next to a blank is read in two chunks. -/
theorem read_andThen {front back : String} (hread : (words.toLexer.read start front).error = none)
    (hmeet : Meet front.toList back.toList) :
    (words.toLexer.read start front).andThen (fun mark => words.toLexer.read mark back) =
      words.toLexer.read start (front ++ back) := by
  simp only [read_eq] at hread ⊢
  rw [String.toList_append, reading_append hmeet start hread]
  rfl

/-- **Chunks meet at blanks**: each of them begins next to a blank of the text. -/
def Seamed (chunks : List String) : Prop :=
  ∀ front chunk back, chunks = front ++ chunk :: back →
    Meet (String.join front).toList chunk.toList

theorem Seamed.front {last : String} (h : Seamed (chunks ++ [last])) : Seamed chunks := by
  intro front chunk back hchunks
  refine h front chunk (back ++ [last]) ?_
  rw [hchunks, List.append_assoc]
  rfl

/-- Two chunks meet at blanks if the cut between them is next to one. -/
theorem seamed_pair {front back : String} (h : Meet front.toList back.toList) :
    Seamed [front, back] := by
  intro before chunk after hchunks
  match before with
  | [] => exact .inl rfl
  | [_] =>
    obtain ⟨rfl, hrest⟩ := List.cons.inj hchunks
    obtain ⟨rfl, -⟩ := List.cons.inj hrest
    rwa [String.join_cons, String.join_nil, String.append_empty]
  | _ :: _ :: _ => exact absurd (congrArg List.length hchunks) (by simp)

/-- **Words are read on where chunks meet at blanks**: what comes of chunks that can be read, up to
the last one, is what comes of the text that they make up. -/
theorem readAll_eq (hseams : Seamed chunks)
    (hread : (words.toLexer.readAll start chunks.dropLast).error = none) :
    words.toLexer.readAll start chunks = words.toLexer.read start (String.join chunks) := by
  -- from the last chunk backwards: the chunks in front of it have been read as one text
  induction chunks using List.reverseRecOn with
  | nil => exact (reading_nil start).symm
  | append_singleton front last ih =>
    rw [List.dropLast_concat] at hread
    have hwhole := ih hseams.front (Lexer.error_readAll_dropLast hread)
    rw [Lexer.readAll_concat, if_pos hread, hwhole, String.join_append, String.join_cons,
      String.join_nil, String.append_empty]
    rw [hwhole] at hread
    exact read_andThen hread (hseams front last [] rfl)

/-- **A text that is cut next to blanks is read on.** Of two chunks, the first one, the mark where
it ended, which is the one behind all of it, and the second one from there give the tokens, the
error and the last mark of the whole text; and so it is with any number of chunks. -/
theorem read_resumed (start : Position) :
    (∀ front back, (words.toLexer.read start front).error = none →
      Meet front.toList back.toList →
      (words.toLexer.read start front).stand = start.behind ruler front.toList ∧
        (words.toLexer.read start front).andThen (fun mark => words.toLexer.read mark back) =
          words.toLexer.read start (front ++ back)) ∧
    ∀ chunks, Seamed chunks → (words.toLexer.readAll start chunks.dropLast).error = none →
      words.toLexer.readAll start chunks = words.toLexer.read start (String.join chunks) := by
  refine ⟨fun front back hread hmeet => ⟨?_, read_andThen hread hmeet⟩, fun _ => readAll_eq⟩
  rw [read_eq] at hread ⊢
  exact stand_reading hread

/-- A line feed at the end of the first chunk, and in the second one a quotation that nothing ends.
-/
theorem read_resumed_torn :
    (words.toLexer.read {} "é \n").error = none ∧ Meet "é \n".toList " 'x".toList ∧
      (words.toLexer.read {} "é \n").stand = { line := 2, col := 0, offset := 4 } ∧
      (words.toLexer.read { line := 2, col := 0, offset := 4 } " 'x").error ≠ none ∧
      (words.toLexer.read {} "é \n").andThen (fun mark => words.toLexer.read mark " 'x") =
        words.toLexer.read {} ("é \n" ++ " 'x") ∧
      words.toLexer.readAll {} ["é \n", " 'x"] =
        words.toLexer.read {} (String.join ["é \n", " 'x"]) := by
  have hread : (words.toLexer.read {} "é \n").error = none := by decide +kernel
  have hmeet : Meet "é \n".toList " 'x".toList := .inl (by decide +kernel)
  obtain ⟨hstand, hwhole⟩ := (read_resumed {}).1 "é \n" " 'x" hread hmeet
  exact ⟨hread, hmeet, hstand, by decide +kernel, hwhole,
    (read_resumed {}).2 _ (seamed_pair hmeet) (by decide +kernel)⟩

end Words

end Earley
