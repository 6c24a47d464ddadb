import Earley.Text.Lines
import Earley.Text.Position
import Mathlib.Data.List.DropRight

/-!
# The line of a place

The line on which a place of a text lies has as many lines above it as there are line feeds in front
of the place. It is made up of the characters behind the last of these and of those up to the next
one. A chunk of a longer text has its lines numbered from that on which it begins.

## Main definitions

* `Position.numbered`: the lines of a chunk with their numbers

## Main results

* `Text.getElem?_lines`: the line of a place
* `Text.lines_append_feed`, `Text.lines_join`: the lines of a text that is put together
* `Position.getElem?_numbered`: its number is that of the position behind what is in front of it
-/

namespace Earley

namespace Text

variable {c : Char} {text : List Char}

theorem lines_feed (text : List Char) : lines ('\n' :: text) = [] :: lines text := by
  rw [lines, if_pos rfl]

/-- A character that ends no line is the first one of the first line. -/
theorem exists_lines_cons (hc : c ≠ '\n') (text : List Char) :
    ∃ line later, lines text = line :: later ∧ lines (c :: text) = (c :: line) :: later := by
  obtain ⟨line, later, hlines⟩ := List.exists_cons_of_ne_nil (lines_ne_nil text)
  refine ⟨line, later, hlines, ?_⟩
  rw [lines, if_neg hc, hlines]

/-- The first line ends in front of the first line feed. -/
theorem getElem?_lines_zero (text : List Char) :
    (lines text)[0]? = some (text.takeWhile (· ≠ '\n')) := by
  induction text with
  | nil => rfl
  | cons c rest ih =>
    by_cases hc : c = '\n'
    · subst hc
      rw [lines_feed, List.takeWhile_cons_of_neg (by simp)]
      rfl
    · obtain ⟨line, later, hlines, hcons⟩ := exists_lines_cons hc rest
      rw [hlines] at ih
      obtain rfl : line = rest.takeWhile (· ≠ '\n') := Option.some.inj ih
      rw [hcons, List.takeWhile_cons_of_pos (by simpa using hc)]
      rfl

/-- What follows the last line feed does not depend on what is in front of that. -/
theorem rtakeWhile_cons_of_mem (h : '\n' ∈ c :: text) :
    (c :: text).rtakeWhile (· ≠ '\n') = text.rtakeWhile (· ≠ '\n') := by
  rw [List.rtakeWhile, List.rtakeWhile, List.reverse_cons, List.takeWhile_append]
  split
  · next hlength =>
    -- there is no line feed behind the first character, so it is that one
    have hself := (List.takeWhile_prefix _).eq_of_length hlength
    have hfirst : '\n' = c := by
      refine (List.mem_cons.mp h).resolve_right fun hmem => ?_
      simpa using List.takeWhile_eq_self_iff.mp hself '\n' (List.mem_reverse.mpr hmem)
    subst hfirst
    rw [List.takeWhile_cons_of_neg (by simp), List.append_nil, hself]
  · rfl

/-- Without a line feed all characters follow the last one. -/
theorem rtakeWhile_of_notMem (h : '\n' ∉ text) : text.rtakeWhile (· ≠ '\n') = text := by
  refine List.rtakeWhile_eq_self_iff.mpr fun c hc => ?_
  have hne : c ≠ '\n' := fun heq => h (heq ▸ hc)
  simpa using hne

/-- **The line of a place**: what is in front of the place on it, and what is behind. -/
theorem getElem?_lines (before behind : List Char) :
    (lines (before ++ behind))[before.count '\n']? =
      some (before.rtakeWhile (· ≠ '\n') ++ behind.takeWhile (· ≠ '\n')) := by
  induction before with
  | nil => exact getElem?_lines_zero behind
  | cons c before ih =>
    by_cases hc : c = '\n'
    · -- the line is in what follows the line feed
      subst hc
      rw [List.cons_append, lines_feed, List.count_cons_self, List.getElem?_cons_succ, ih,
        rtakeWhile_cons_of_mem List.mem_cons_self]
    · obtain ⟨line, later, hlines, hcons⟩ := exists_lines_cons hc (before ++ behind)
      rw [hlines] at ih
      rw [List.cons_append, hcons, List.count_cons_of_ne hc]
      by_cases hmem : '\n' ∈ before
      · -- the line is below the first one
        obtain ⟨n, hn⟩ := Nat.exists_eq_add_one.mpr (List.count_pos_iff.mpr hmem)
        rw [hn, List.getElem?_cons_succ] at ih ⊢
        rw [ih, rtakeWhile_cons_of_mem (List.mem_cons_of_mem c hmem)]
      · -- the line is the first one
        have hnone : '\n' ∉ c :: before := List.not_mem_cons_of_ne_of_not_mem (Ne.symm hc) hmem
        rw [List.count_eq_zero_of_not_mem hmem] at ih ⊢
        rw [rtakeWhile_of_notMem hmem] at ih
        obtain rfl : line = _ := Option.some.inj ih
        rw [rtakeWhile_of_notMem hnone]
        rfl

/-- A text without a line feed is a single line. -/
theorem lines_of_notMem (h : '\n' ∉ text) : lines text = [text] := by
  have hlength : (lines text).length = 1 := by
    rw [length_lines, List.count_eq_zero_of_not_mem h]
  obtain ⟨line, hline⟩ := List.length_eq_one_iff.mp hlength
  have hfirst := getElem?_lines_zero text
  have hself : text.takeWhile (· ≠ '\n') = text := by
    refine List.takeWhile_eq_self_iff.mpr fun c hc => ?_
    have hne : c ≠ '\n' := fun heq => h (heq ▸ hc)
    simpa using hne
  rw [hline, hself] at hfirst
  rw [hline, Option.some.inj hfirst]

/-- **A line feed parts the lines** of what is in front of it and of what is behind. -/
theorem lines_append_feed (text rest : List Char) :
    lines (text ++ '\n' :: rest) = lines text ++ lines rest := by
  induction text with
  | nil => exact lines_feed rest
  | cons c text ih =>
    by_cases hc : c = '\n'
    · subst hc
      rw [List.cons_append, lines_feed, lines_feed, ih, List.cons_append]
    · -- the character goes to the first line, which is in front of the line feed
      obtain ⟨line, later, hlines, hcons⟩ := exists_lines_cons hc text
      obtain ⟨line', later', hlines', hcons'⟩ := exists_lines_cons hc (text ++ '\n' :: rest)
      rw [ih, hlines, List.cons_append] at hlines'
      obtain ⟨rfl, rfl⟩ := List.cons.inj hlines'
      rw [List.cons_append, hcons', hcons, List.cons_append]

/-! ## Lines one under the other -/

/-- Lines that stand one under the other, the last one ended too. -/
theorem intercalate_append_feed {lines : List String} (hne : lines ≠ []) :
    "\n".intercalate lines ++ "\n" = String.join (lines.map (· ++ "\n")) := by
  induction lines with
  | nil => exact absurd rfl hne
  | cons line rest ih =>
    cases rest with
    | nil => simp
    | cons next rest =>
      rw [String.intercalate_cons_cons, String.append_assoc, ih (List.cons_ne_nil _ _)]
      simp [String.append_assoc]

/-- Lines that stand one under the other, with an empty one at the end. -/
theorem intercalate_concat_empty {lines : List String} (hne : lines ≠ []) :
    "\n".intercalate (lines ++ [""]) = String.join (lines.map (· ++ "\n")) := by
  induction lines with
  | nil => exact absurd rfl hne
  | cons line rest ih =>
    cases rest with
    | nil => simp
    | cons next rest =>
      rw [List.cons_append, List.cons_append, String.intercalate_cons_cons, ← List.cons_append,
        ih (List.cons_ne_nil _ _)]
      simp [String.append_assoc]

/-- The lines of a text that is written line by line. -/
theorem lines_join (texts : List String) :
    lines (String.join (texts.map (· ++ "\n"))).toList =
      texts.flatMap (fun text => lines text.toList) ++ [[]] := by
  induction texts with
  | nil => rfl
  | cons text rest ih =>
    have hfeed : (String.join ((text :: rest).map (· ++ "\n"))).toList =
        text.toList ++ '\n' :: (String.join (rest.map (· ++ "\n"))).toList := by
      simp
    rw [hfeed, lines_append_feed, ih, List.flatMap_cons, List.append_assoc]

end Text

namespace Position

/-- **The lines of a chunk with their numbers** in the whole text. -/
def numbered (start : Position) (chunk : List Char) : List (Nat × List Char) :=
  (Text.lines chunk).mapIdx fun i line => (start.line + i, line)

/-- **The line of a place has the number of the place.** -/
theorem getElem?_numbered (start : Position) (before behind : List Char) :
    (start.numbered (before ++ behind))[before.count '\n']? =
      some (start.line + before.count '\n',
        before.rtakeWhile (· ≠ '\n') ++ behind.takeWhile (· ≠ '\n')) := by
  rw [numbered, List.getElem?_mapIdx, Text.getElem?_lines, Option.map_some]

end Position

end Earley
