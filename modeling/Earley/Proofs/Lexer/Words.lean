import Earley.Lexer.Words
import Earley.Proofs.Lexer.Lexeme
import Earley.Proofs.Text.Position

/-!
# Reading words

A text falls into blanks and lexemes, up to its end or to a quotation that cannot be read. A text
that is cut next to a blank is read in two parts as it is read in one, if the second part is read
from where the first one ends.

That place is behind the blanks at the end of the first part. The mark behind the last token is in
front of them, and a text with words that is read from there has other tokens: their offsets are too
small.

## Main definitions

* `Words.reading`: what comes of reading a text
* `Words.Cut`: how a text falls into words
* `Words.Meet`: a cut next to a blank
* `Words.Spaced`: a text that consists of words, with blanks around them

## Main results

* `Words.reading_append`: a text cut next to a blank
* `Words.exists_trailing`: a text ends behind its last token and the blanks at its end
* `Words.length_tokens_eq`, `Words.offset_eq_of_tokens_eq`: what the place where a text is read from
  changes in its tokens
* `Words.spaced_reading`: reading leaves out blanks only
* `Words.tokens_markBehind_iff`: where the mark behind the last token will do
-/

namespace Earley

open Text (isBlank)

namespace Words

variable {c : Char} {rest behind front back : List Char} {l : Lexeme} {fault : Quotation.Fault}
  {p q : Position}

/-- **What comes of reading a text** from a position on. -/
def reading (p : Position) (text : List Char) : Reading Position :=
  words.drain { rest := text, position := p }

theorem read_eq (p : Position) (chunk : String) :
    words.toLexer.read p chunk = reading p chunk.toList := rfl

/-- **How a text falls into words**: blanks and lexemes, up to its end or to a quotation that cannot
be read. -/
inductive Cut : List Char → Prop
  | nil : Cut []
  | blank {c : Char} {rest : List Char} (hc : isBlank c = true) (hrest : Cut rest) :
      Cut (c :: rest)
  | fault {c : Char} {rest : List Char} {fault : Quotation.Fault} (hc : isBlank c = false)
      (hread : Lexeme.read c rest = .error fault) : Cut (c :: rest)
  | word {c : Char} {rest behind : List Char} {l : Lexeme} (hc : isBlank c = false)
      (hread : Lexeme.read c rest = .ok (l, behind)) (hbehind : Cut behind) : Cut (c :: rest)

/-- **Every text falls into words.** -/
theorem cut (text : List Char) : Cut text := by
  induction hn : text.length using Nat.strongRecOn generalizing text with
  | ind n ih =>
    cases text with
    | nil => exact .nil
    | cons c rest =>
      rw [List.length_cons] at hn
      by_cases hc : isBlank c = true
      · exact .blank hc (ih rest.length (by omega) rest rfl)
      · have hc : isBlank c = false := Bool.eq_false_iff.mpr hc
        cases hread : Lexeme.read c rest with
        | error fault => exact .fault hc hread
        | ok result =>
          obtain ⟨l, behind⟩ := result
          have hlt := Lexeme.length_lt_of_read hread
          rw [List.length_cons] at hlt
          exact .word hc hread (ih behind.length (by omega) behind rfl)

/-! ## One step of reading -/

theorem reading_nil (p : Position) : reading p [] = { tokens := [], stand := p } := by
  have hnext : words.next { rest := [], position := p } = .nothing { rest := [], position := p } :=
    rfl
  exact TextLexer.drain_of_nothing hnext

theorem reading_blank (hc : isBlank c = true) (rest : List Char) (p : Position) :
    reading p (c :: rest) = reading (p.step ruler c) rest := by
  have hskip : skipBlanks { rest := c :: rest, position := p } =
      skipBlanks { rest, position := p.step ruler c } := by
    simp [skipBlanks, hc]
  have hnext : words.next { rest := c :: rest, position := p } =
      words.next { rest, position := p.step ruler c } := by
    show Words.next _ = Words.next _
    unfold Words.next
    rw [hskip]
  exact TextLexer.drain_congr hnext

theorem skipBlanks_cons (hc : isBlank c = false) (rest : List Char) (p : Position) :
    skipBlanks { rest := c :: rest, position := p } = { rest := c :: rest, position := p } := by
  simp [skipBlanks, hc]

theorem reading_fault (hc : isBlank c = false) (hread : Lexeme.read c rest = .error fault)
    (p : Position) :
    reading p (c :: rest) =
      { tokens := [], stand := p, error := some (faultError p fault (c :: rest)) } := by
  have hnext : words.next { rest := c :: rest, position := p } =
      .failure (faultError p fault (c :: rest)) { rest := c :: rest, position := p } := by
    show Words.next _ = _
    simp only [Words.next, skipBlanks_cons hc, hread]
  exact TextLexer.drain_of_failure hnext

theorem reading_word (hc : isBlank c = false) (hread : Lexeme.read c rest = .ok (l, behind))
    (p : Position) :
    reading p (c :: rest) =
      { reading (p.behind ruler l.text) behind with
        tokens := (lexemeToken p l, p.behind ruler l.text) ::
          (reading (p.behind ruler l.text) behind).tokens } := by
  have hnext : words.next { rest := c :: rest, position := p } =
      .token (lexemeToken p l) { rest := behind, position := p.behind ruler l.text } := by
    show Words.next _ = _
    simp only [Words.next, skipBlanks_cons hc, hread]
  exact TextLexer.drain_of_token hnext

/-! ## Cutting a text -/

/-- **A cut next to a blank**: the first text is empty or ends with one, or the second one is empty
or begins with one. -/
def Meet (front back : List Char) : Prop :=
  front.getLast?.all isBlank = true ∨ back.head?.all isBlank = true

theorem Meet.of_append (text : List Char) (h : Meet (text ++ front) back) : Meet front back := by
  refine h.imp_left fun hlast => ?_
  cases front with
  | nil => rfl
  | cons c rest =>
    rw [List.getLast?_append, List.getLast?_eq_some_getLast (List.cons_ne_nil c rest)] at hlast
    rwa [List.getLast?_eq_some_getLast (List.cons_ne_nil c rest)]

/-- **A text that is cut next to a blank** is read in two parts, the second one from where the first
one ends. -/
theorem reading_append (hmeet : Meet front back) (p : Position)
    (herror : (reading p front).error = none) :
    reading p (front ++ back) =
      { reading (reading p front).stand back with
        tokens := (reading p front).tokens ++ (reading (reading p front).stand back).tokens } := by
  have hcut := cut front
  induction hcut generalizing p with
  | nil => simp [reading_nil]
  | @blank c rest hc _ ih =>
    rw [reading_blank hc] at herror
    rw [List.cons_append, reading_blank hc, reading_blank hc]
    exact ih (Meet.of_append [c] hmeet) _ herror
  | @fault c rest fault hc hread =>
    rw [reading_fault hc hread] at herror
    exact nomatch herror
  | @word c rest behind l hc hread _ ih =>
    have htext := Lexeme.text_append_of_read hread
    have hends : behind ≠ [] ∨ back.head?.all isBlank = true := by
      by_cases hbehind : behind = []
      · refine .inr (hmeet.resolve_left fun hlast => ?_)
        -- the lexeme would be the end of the text, and end with a blank
        rw [hbehind, List.append_nil] at htext
        rw [← htext, Lexeme.not_isBlank_of_read hc hread] at hlast
        exact nomatch hlast
      · exact .inl hbehind
    rw [reading_word hc hread] at herror
    rw [List.cons_append, reading_word hc (Lexeme.read_append hread hends), reading_word hc hread,
      ih (Meet.of_append l.text (htext ▸ hmeet)) _ herror]
    rfl

/-! ## Where a text is read from -/

/-- Passing a text moves the offset on, unless the text is empty. -/
theorem offset_lt_behind {text : List Char} (hne : text ≠ []) (p : Position) :
    p.offset < (p.behind ruler text).offset := by
  obtain ⟨c, rest, rfl⟩ := List.exists_cons_of_ne_nil hne
  have hwidth : 0 < ruler.width c := Char.utf8Size_pos c
  rw [Position.offset_behind, List.map_cons, List.sum_cons]
  omega

/-- **The place where a text is read from** changes neither the number of its tokens nor whether it
can be read. -/
theorem length_tokens_eq (text : List Char) (p q : Position) :
    (reading p text).tokens.length = (reading q text).tokens.length ∧
      ((reading p text).error = none ↔ (reading q text).error = none) := by
  have hcut := cut text
  induction hcut generalizing p q with
  | nil => simp [reading_nil]
  | blank hc _ ih =>
    rw [reading_blank hc, reading_blank hc]
    exact ih _ _
  | fault hc hread =>
    rw [reading_fault hc hread, reading_fault hc hread]
    simp
  | word hc hread _ ih =>
    rw [reading_word hc hread, reading_word hc hread]
    exact ⟨congrArg (· + 1) (ih _ _).1, (ih _ _).2⟩

/-- **The place where a text with words is read from shows in its tokens.** -/
theorem offset_eq_of_tokens_eq (text : List Char)
    (h : (reading p text).tokens.map Prod.fst = (reading q text).tokens.map Prod.fst)
    (hne : (reading p text).tokens ≠ []) : p.offset = q.offset := by
  have hcut := cut text
  -- down to the first word: the positions move on by the same blanks on the way
  induction hcut generalizing p q with
  | nil => simp [reading_nil] at hne
  | @blank c rest hc _ ih =>
    rw [reading_blank hc, reading_blank hc] at h
    rw [reading_blank hc] at hne
    have hstep := ih h hne
    rw [Position.offset_step, Position.offset_step] at hstep
    exact Nat.add_right_cancel hstep
  | fault hc hread => simp [reading_fault hc hread] at hne
  | @word c rest behind l hc hread _ _ =>
    rw [reading_word hc hread, reading_word hc hread] at h
    have htoken : lexemeToken p l = lexemeToken q l := (List.cons.inj h).1
    have hoffset := congrArg Token.offset htoken
    unfold lexemeToken at hoffset
    split at hoffset <;> exact hoffset

/-! ## The end of a text -/

/-- A text without words is blank. -/
theorem isBlank_of_tokens_eq_nil {text : List Char} (herror : (reading p text).error = none)
    (h : (reading p text).tokens = []) : ∀ c ∈ text, isBlank c = true := by
  have hcut := cut text
  induction hcut generalizing p with
  | nil => simp
  | blank hc _ ih =>
    rw [reading_blank hc] at herror h
    exact List.forall_mem_cons.mpr ⟨hc, ih herror h⟩
  | fault hc hread =>
    rw [reading_fault hc hread] at herror
    exact nomatch herror
  | word hc hread =>
    rw [reading_word hc hread] at h
    exact nomatch h

/-- Blanks are passed over. -/
theorem reading_of_blank {text : List Char} (h : ∀ c ∈ text, isBlank c = true) (p : Position) :
    reading p text = { tokens := [], stand := p.behind ruler text } := by
  induction text generalizing p with
  | nil => exact reading_nil p
  | cons c rest ih =>
    obtain ⟨hc, hrest⟩ := List.forall_mem_cons.mp h
    rw [reading_blank hc, ih hrest]
    rfl

theorem any_getLast?_append {text tail : List Char} (h : tail ≠ []) :
    (text ++ tail).getLast?.any isBlank = tail.getLast?.any isBlank := by
  rw [List.getLast?_append, List.getLast?_eq_some_getLast h, Option.some_or]

/-- **The place where a text ends** is behind its last token and the blanks at the end of the
text. -/
theorem exists_trailing {text : List Char} (herror : (reading p text).error = none) :
    ∃ blanks, (∀ c ∈ blanks, isBlank c = true) ∧
      (reading p text).stand =
        (markBehind p (reading p text).tokens).behind ruler blanks ∧
      (blanks = [] ↔ text.getLast?.any isBlank = false) := by
  have hcut := cut text
  induction hcut generalizing p with
  | nil => exact ⟨[], by simp [reading_nil]⟩
  | @blank c rest hc _ ih =>
    rw [reading_blank hc] at herror ⊢
    cases htokens : (reading (p.step ruler c) rest).tokens with
    | nil =>
      -- there are blanks only, and the mark is in front of them all
      have hrest := isBlank_of_tokens_eq_nil herror htokens
      have hall : ∀ d ∈ c :: rest, isBlank d = true := List.forall_mem_cons.mpr ⟨hc, hrest⟩
      refine ⟨c :: rest, hall, ?_, iff_of_false (List.cons_ne_nil c rest) ?_⟩
      · rw [reading_of_blank hrest]
        rfl
      · have hlast := hall _ (List.getLast_mem (List.cons_ne_nil c rest))
        simp [List.getLast?_eq_some_getLast (List.cons_ne_nil c rest), hlast]
    | cons token later =>
      obtain ⟨blanks, hblanks, hstand, hiff⟩ := ih herror
      have hne : rest ≠ [] := by
        rintro rfl
        rw [reading_nil] at htokens
        exact nomatch htokens
      rw [htokens] at hstand
      refine ⟨blanks, hblanks, hstand, hiff.trans ?_⟩
      rw [← List.singleton_append, any_getLast?_append hne]
  | fault hc hread =>
    rw [reading_fault hc hread] at herror
    exact nomatch herror
  | @word c rest behind l hc hread _ ih =>
    rw [reading_word hc hread] at herror ⊢
    obtain ⟨blanks, hblanks, hstand, hiff⟩ := ih herror
    refine ⟨blanks, hblanks, hstand, hiff.trans ?_⟩
    -- the last character is that of what is behind the lexeme, or else no blank
    rw [← Lexeme.text_append_of_read hread]
    by_cases hbehind : behind = []
    · have hlast := Lexeme.not_isBlank_of_read hc hread
      cases hl : l.text.getLast? with
      | none => simp [hl] at hlast
      | some d => simp_all
    · rw [any_getLast?_append hbehind]

/-! ## What is left out -/

/-- **A text consists of words** with blanks around them. No word begins or ends with a blank. -/
inductive Spaced : (text : List Char) → (parts : List (List Char)) → Prop
  | nil : Spaced [] []
  | blank {c : Char} {text : List Char} {parts : List (List Char)} (hc : isBlank c = true)
      (h : Spaced text parts) : Spaced (c :: text) parts
  | word {part text : List Char} {parts : List (List Char)} (hfirst : part.head?.all isBlank = false)
      (hlast : part.getLast?.all isBlank = false) (h : Spaced text parts) :
      Spaced (part ++ text) (part :: parts)

theorem Spaced.append {parts more : List (List Char)} (h : Spaced front parts)
    (hback : Spaced back more) : Spaced (front ++ back) (parts ++ more) := by
  induction h with
  | nil => exact hback
  | blank hc _ ih => exact .blank hc ih
  | word hfirst hlast _ ih =>
    rw [List.append_assoc]
    exact .word hfirst hlast ih

/-- The source text of a token is that of its lexeme. -/
theorem literal_lexemeToken (p : Position) (l : Lexeme) :
    (lexemeToken p l).literal = String.ofList l.text := by
  unfold lexemeToken
  split <;> rfl

/-- **Reading leaves out blanks only**: a text that is read to its end consists of the source texts of
its tokens, with blanks around them. -/
theorem spaced_reading {text : List Char} (herror : (reading p text).error = none) :
    Spaced text ((reading p text).tokens.map fun token => token.1.literal.toList) := by
  have hcut := cut text
  induction hcut generalizing p with
  | nil =>
    rw [reading_nil]
    exact .nil
  | blank hc _ ih =>
    rw [reading_blank hc] at herror ⊢
    exact .blank hc (ih herror)
  | fault hc hread =>
    rw [reading_fault hc hread] at herror
    exact nomatch herror
  | @word c rest behind l hc hread _ ih =>
    rw [reading_word hc hread] at herror ⊢
    have htext := Lexeme.text_append_of_read hread
    -- a lexeme begins with the character that it was read from
    have hfirst : l.text.head?.all isBlank = false := by
      obtain ⟨first, more, hcons⟩ := List.exists_cons_of_ne_nil (Lexeme.text_ne_nil_of_read hread)
      rw [hcons, List.cons_append] at htext
      rw [hcons, (List.cons.inj htext).1]
      exact hc
    rw [← htext, List.map_cons, literal_lexemeToken, String.toList_ofList]
    exact .word hfirst (Lexeme.not_isBlank_of_read hc hread) (ih herror)

/-! ## Going on behind the last token -/

/-- **Behind a text that does not end with a blank**, the mark behind its last token is as good as
the place where it ends. It is so behind any text in front of a text without words. -/
theorem tokens_markBehind_eq (herror : (reading p front).error = none)
    (hkept : front.getLast?.any isBlank = true →
      (reading (markBehind p (reading p front).tokens) back).tokens = []) :
    (reading (reading p front).stand back).tokens =
      (reading (markBehind p (reading p front).tokens) back).tokens := by
  obtain ⟨blanks, -, hstand, hiff⟩ := exists_trailing herror
  cases hlast : front.getLast?.any isBlank with
  | false => rw [hstand, hiff.mpr hlast, Position.behind_nil]
  | true =>
    -- without tokens from the mark on, there are none from the end on either
    have hnone := hkept hlast
    have hlength := (length_tokens_eq back (reading p front).stand
      (markBehind p (reading p front).tokens)).1
    rw [hnone, List.length_nil] at hlength
    rw [hnone, List.length_eq_zero_iff.mp hlength]

/-- **Behind a text that ends with a blank**, no text with words has the same tokens from the mark
behind the last token on. -/
theorem tokens_eq_nil_of_markBehind (herror : (reading p front).error = none)
    (hlast : front.getLast?.any isBlank = true)
    (h : (reading (reading p front).stand back).tokens.map Prod.fst =
      (reading (markBehind p (reading p front).tokens) back).tokens.map Prod.fst) :
    (reading (markBehind p (reading p front).tokens) back).tokens = [] := by
  obtain ⟨blanks, -, hstand, hiff⟩ := exists_trailing herror
  have hne : blanks ≠ [] := by
    intro hempty
    rw [hiff.mp hempty] at hlast
    exact nomatch hlast
  by_cases hwords : (reading (markBehind p (reading p front).tokens) back).tokens = []
  · exact hwords
  · -- the first word would show that the blanks at the end were passed over
    have hoffset := offset_eq_of_tokens_eq back h.symm hwords
    rw [hstand] at hoffset
    exact absurd hoffset (Nat.ne_of_lt (offset_lt_behind hne _))

/-- **The mark behind the last token is as good as the place where a text ends**, for the tokens of
what follows, exactly if the text does not end with a blank or there are none. -/
theorem tokens_markBehind_iff (herror : (reading p front).error = none) :
    (reading (reading p front).stand back).tokens.map Prod.fst =
        (reading (markBehind p (reading p front).tokens) back).tokens.map Prod.fst ↔
      (front.getLast?.any isBlank = true →
        (reading (markBehind p (reading p front).tokens) back).tokens = []) := by
  constructor
  · intro hsame hlast
    exact tokens_eq_nil_of_markBehind herror hlast hsame
  · intro hkept
    exact congrArg (List.map Prod.fst) (tokens_markBehind_eq herror hkept)

end Words

end Earley
