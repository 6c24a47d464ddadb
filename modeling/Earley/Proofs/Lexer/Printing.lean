import Earley.Proofs.Lexer.Quotations
import Earley.Proofs.Lexer.Words

/-!
# Printing tokens

The words of a text can be told from their own texts, whatever they stood next to: what follows a
lexeme is not needed to read it. So the source texts of the tokens of a text, printed with blanks
between them, are read as the same tokens again, in other places.

## Main definitions

* `Token.unplaced`: a token without its place
* `Token.printed`: the source texts of tokens, with spaces between them
* `Lexeme.Alone`: a lexeme that is read from its own text

## Main results

* `Lexeme.read_of_append`: what follows a lexeme is not needed to read it
* `Words.exists_alone`: a text that can be read consists of lexemes that can be read alone
* `Words.reading_separated`: lexemes with blanks between them
* `Words.read_printed`: what is printed is read as the same tokens
-/

namespace Earley

open Text (isBlank)

/-- **A token without its place.** -/
def Token.unplaced (t : Token) : Token :=
  { value := t.value, text := t.text, kind := t.kind }

/-- **The source texts of tokens**, with a space between each two. -/
def Token.printed (tokens : List Token) : String :=
  " ".intercalate (tokens.map Token.literal)

/-! ## Quotations without what follows -/

namespace Quotation

variable {closers body inner content behind : List Char} {sharps : Nat} {closer quote : Char}
  {l : Lexeme}

theorem Closes.append (h : Closes closers sharps body content closer behind) (more : List Char) :
    Closes closers sharps (body ++ more) content closer (behind ++ more) where
  mem := h.mem
  body_eq := by rw [h.body_eq]; simp

/-- A quotation with an `r` begins with its sharps and an opening delimiter. -/
theorem exists_of_readRaw_ok {text : List Char} (h : readRaw text = .ok (l, behind)) :
    ∃ sharps opener body closers, text = List.replicate sharps '#' ++ opener :: body ∧
      closers? opener = some closers := by
  have htext := List.takeWhile_append_dropWhile (p := (· == '#')) (l := text)
  simp only [readRaw] at h
  split at h
  · cases h
  · next opener body hdrop =>
    split at h
    · cases h
    · next closers hclosers =>
      rw [hdrop, takeWhile_sharps] at htext
      exact ⟨_, opener, body, closers, htext.symm, hclosers⟩

/-- **What follows a quotation with an `r` is not needed to read it.** -/
theorem readRaw_of_append (h : readRaw (inner ++ behind) = .ok (l, behind)) :
    inner ≠ [] ∧ readRaw inner = .ok (l, []) := by
  obtain ⟨sharps, opener, body, closers, htext, hclosers⟩ := exists_of_readRaw_ok h
  rw [htext] at h
  obtain ⟨content, closer, hcloses, hfirst, hl⟩ := (readRaw_ok_iff hclosers sharps body).mp h
  have hinner : inner = List.replicate sharps '#' ++ opener ::
      (content ++ closer :: (List.replicate sharps '#' ++ [])) := by
    rw [hcloses.body_eq] at htext
    have htext' : inner ++ behind = (List.replicate sharps '#' ++ opener ::
        (content ++ closer :: (List.replicate sharps '#' ++ []))) ++ behind := by
      rw [htext]
      simp
    exact List.append_cancel_right htext'
  refine ⟨by rw [hinner]; simp, ?_⟩
  rw [hinner]
  refine (readRaw_ok_iff hclosers sharps _).mpr ⟨content, closer, ⟨hcloses.mem, rfl⟩, ?_, hl⟩
  intro content' closer' behind' hcloses'
  -- an end of the quotation by itself is one in front of what follows, too
  refine hfirst content' closer' (behind' ++ behind) ?_
  have hbody : content ++ closer :: (List.replicate sharps '#' ++ []) ++ behind = body := by
    rw [hcloses.body_eq]
    simp
  rw [← hbody]
  exact hcloses'.append behind

/-- **What follows a quotation without an `r` is not needed to read it.** -/
theorem readPlain_of_append (h : readPlain quote (inner ++ behind) = .ok (l, behind)) :
    readPlain quote inner = .ok (l, []) := by
  obtain ⟨content, htext, hquote, hl⟩ := readPlain_ok_iff.mp h
  have htext' : inner ++ behind = (content ++ [quote]) ++ behind := by
    rw [htext]
    simp
  exact readPlain_ok_iff.mpr ⟨content, List.append_cancel_right htext', hquote, hl⟩

end Quotation

/-! ## Lexemes without what follows -/

namespace Lexeme

variable {c : Char} {rest inner behind : List Char} {l : Lexeme}

theorem run_of_append {kind : Kind} {goesOn : Char → Bool}
    (h : run kind goesOn c (inner ++ behind) = (l, behind)) :
    run kind goesOn c inner = (l, []) := by
  obtain ⟨hl, hbehind⟩ := Prod.mk.inj h
  -- the run is all that stands in front of what follows
  have hrun : (inner ++ behind).takeWhile goesOn = inner := by
    have hall := List.takeWhile_append_dropWhile (p := goesOn) (l := inner ++ behind)
    rw [hbehind] at hall
    exact List.append_cancel_right hall
  have hgoes : ∀ d ∈ inner, goesOn d = true := by
    rw [← hrun]
    exact List.all_eq_true.mp List.all_takeWhile
  rw [hrun] at hl
  rw [run, List.takeWhile_eq_self_iff.mpr hgoes, List.dropWhile_eq_nil_iff.mpr hgoes, hl]

theorem readWord_of_append (h : readWord c (inner ++ behind) = (l, behind)) :
    readWord c inner = (l, []) := by
  unfold readWord at h ⊢
  split_ifs at h ⊢
  · exact run_of_append h
  · exact run_of_append h
  · obtain ⟨hl, hbehind⟩ := Prod.mk.inj h
    rw [hl, List.append_left_eq_self.mp hbehind]
  · exact run_of_append h

/-- **What follows a lexeme is not needed to read it.** -/
theorem read_of_append (h : read c (inner ++ behind) = .ok (l, behind)) :
    read c inner = .ok (l, []) := by
  -- behind an `r`, the first character tells whether a quotation opens
  have hopens (hne : inner ≠ []) :
      Quotation.opensRaw (inner ++ behind) = Quotation.opensRaw inner :=
    Quotation.opensRaw_append (.inl hne)
  unfold read at h ⊢
  split at h
  · next hraw =>
    obtain ⟨hne, hread⟩ := Quotation.readRaw_of_append h
    rw [hopens hne] at hraw
    rw [if_pos hraw, hread]
  · next hraw =>
    have hraw : ¬(c == 'r' && Quotation.opensRaw inner) = true := by
      by_cases hne : inner = []
      · simp [hne, Quotation.opensRaw]
      · rwa [hopens hne] at hraw
    rw [if_neg hraw]
    split at h
    · next hquote => rw [if_pos hquote, Quotation.readPlain_of_append h]
    · next hquote => rw [if_neg hquote, readWord_of_append (Except.ok.inj h)]

/-- **A lexeme that is read from its own text.** -/
def Alone (l : Lexeme) : Prop :=
  ∃ c inner, l.text = c :: inner ∧ isBlank c = false ∧ read c inner = .ok (l, [])

/-- **Every lexeme can be read alone.** -/
theorem alone_of_read (hc : isBlank c = false) (h : read c rest = .ok (l, behind)) : l.Alone := by
  have htext := text_append_of_read h
  obtain ⟨first, inner, hl⟩ := List.exists_cons_of_ne_nil (text_ne_nil_of_read h)
  rw [hl, List.cons_append] at htext
  obtain ⟨rfl, rfl⟩ := List.cons.inj htext
  exact ⟨first, inner, hl, hc, read_of_append h⟩

end Lexeme

/-! ## Printed tokens -/

namespace Words

variable {gap : List Char} {lexemes : List Lexeme}

/-- The token of a lexeme is the same everywhere but for its place. -/
theorem unplaced_lexemeToken (p : Position) (l : Lexeme) :
    (lexemeToken p l).unplaced = lexemeToken {} l := by
  unfold lexemeToken
  split <;> rfl

/-- **A text that can be read consists of lexemes that can be read alone.** -/
theorem exists_alone {p : Position} {text : List Char} (herror : (reading p text).error = none) :
    ∃ lexemes : List Lexeme, (∀ l ∈ lexemes, l.Alone) ∧
      (reading p text).tokens.map (fun token => token.1.unplaced) =
        lexemes.map (lexemeToken {}) := by
  have hcut := cut text
  -- along the text: the blanks are left out, and every lexeme stays
  induction hcut generalizing p with
  | nil => exact ⟨[], by simp [reading_nil]⟩
  | blank hc _ ih =>
    rw [reading_blank hc] at herror ⊢
    exact ih herror
  | fault hc hread =>
    rw [reading_fault hc hread] at herror
    exact nomatch herror
  | @word c rest behind l hc hread _ ih =>
    rw [reading_word hc hread] at herror ⊢
    obtain ⟨lexemes, halone, htokens⟩ := ih herror
    refine ⟨l :: lexemes, List.forall_mem_cons.mpr ⟨Lexeme.alone_of_read hc hread, halone⟩, ?_⟩
    rw [List.map_cons, List.map_cons, htokens, unplaced_lexemeToken]

theorem reading_gap (hgap : ∀ c ∈ gap, isBlank c = true) (p : Position) (text : List Char) :
    reading p (gap ++ text) = reading (p.behind ruler gap) text := by
  induction gap generalizing p with
  | nil => rfl
  | cons c gap ih =>
    obtain ⟨hc, hgap⟩ := List.forall_mem_cons.mp hgap
    rw [List.cons_append, reading_blank hc, ih hgap, Position.behind_cons]

/-- **Lexemes with blanks between them** are read one by one. -/
theorem reading_separated (hne : gap ≠ []) (hgap : ∀ c ∈ gap, isBlank c = true)
    (halone : ∀ l ∈ lexemes, l.Alone) (p : Position) :
    (reading p (gap.intercalate (lexemes.map Lexeme.text))).error = none ∧
      (reading p (gap.intercalate (lexemes.map Lexeme.text))).tokens.map
        (fun token => token.1.unplaced) = lexemes.map (lexemeToken {}) := by
  induction lexemes generalizing p with
  | nil => simp [reading_nil]
  | cons l lexemes ih =>
    obtain ⟨⟨c, inner, htext, hc, hread⟩, halone⟩ := List.forall_mem_cons.mp halone
    cases lexemes with
    | nil =>
      rw [List.map_cons, List.map_nil, List.intercalate_singleton, htext, reading_word hc hread]
      simp [reading_nil, unplaced_lexemeToken]
    | cons next lexemes =>
      -- the blank behind the lexeme ends it
      obtain ⟨blank, more, rfl⟩ := List.exists_cons_of_ne_nil hne
      have hread : Lexeme.read c (inner ++ (blank :: more ++
            (blank :: more).intercalate ((next :: lexemes).map Lexeme.text))) =
          .ok (l, [] ++ (blank :: more ++
            (blank :: more).intercalate ((next :: lexemes).map Lexeme.text))) :=
        Lexeme.read_append hread (.inr (by simpa using hgap blank List.mem_cons_self))
      rw [List.map_cons, List.map_cons, List.intercalate_cons_cons, ← List.map_cons, htext,
        List.append_assoc, List.cons_append, reading_word hc hread, List.nil_append,
        reading_gap hgap]
      obtain ⟨herror, htokens⟩ := ih halone ((p.behind ruler l.text).behind ruler (blank :: more))
      refine ⟨herror, ?_⟩
      rw [List.map_cons, htokens, unplaced_lexemeToken]
      rfl

/-- What is printed of tokens is the texts of their lexemes. -/
theorem toList_printed {tokens : List Token}
    (h : tokens.map Token.unplaced = lexemes.map (lexemeToken {})) :
    (Token.printed tokens).toList = [' '].intercalate (lexemes.map Lexeme.text) := by
  have hliteral : tokens.map Token.literal = (tokens.map Token.unplaced).map Token.literal := by
    rw [List.map_map]
    rfl
  have htext : (fun l : Lexeme => (lexemeToken {} l).literal.toList) = Lexeme.text := by
    funext l
    rw [literal_lexemeToken, String.toList_ofList]
  rw [Token.printed, String.toList_intercalate, hliteral, h, List.map_map, List.map_map]
  exact congrArg (fun text => [' '].intercalate (lexemes.map text)) htext

/-- **Printed tokens are read again**: the source texts of the tokens of a text, with a space
between each two, are read as the same tokens in the same order, but for their places. -/
theorem read_printed (start again : Position) {chunk : String}
    (hread : (words.toLexer.read start chunk).error = none) :
    (words.toLexer.read again
        (Token.printed ((words.toLexer.read start chunk).tokens.map Prod.fst))).error = none ∧
      (words.toLexer.read again
          (Token.printed ((words.toLexer.read start chunk).tokens.map Prod.fst))).tokens.map
        (fun token => token.1.unplaced) =
      (words.toLexer.read start chunk).tokens.map fun token => token.1.unplaced := by
  obtain ⟨lexemes, halone, htokens⟩ := exists_alone hread
  rw [← read_eq] at htokens
  have hprinted : (Token.printed ((words.toLexer.read start chunk).tokens.map Prod.fst)).toList =
      [' '].intercalate (lexemes.map Lexeme.text) := by
    apply toList_printed
    rw [← htokens, List.map_map]
    rfl
  have hspace : isBlank ' ' = true := by decide +kernel
  have hblank : ∀ c ∈ [' '], isBlank c = true := List.forall_mem_singleton.mpr hspace
  obtain ⟨herror, hagain⟩ := reading_separated (List.cons_ne_nil ' ' []) hblank halone again
  rw [← hprinted, ← read_eq] at herror hagain
  exact ⟨herror, hagain.trans htokens.symm⟩

/-- An identifier that could begin a quotation, an operator that holds a quote and a sharp, and two
quotations without a blank between them. -/
theorem read_printed_adjacent :
    (words.toLexer.read {} "r+'#\nr#[a ]b]#'c d'").error = none ∧
      Token.printed ((words.toLexer.read {} "r+'#\nr#[a ]b]#'c d'").tokens.map Prod.fst) =
        "r +'# r#[a ]b]# 'c d'" ∧
      (words.toLexer.read {} "r +'# r#[a ]b]# 'c d'").error = none ∧
      (words.toLexer.read {} "r +'# r#[a ]b]# 'c d'").tokens.map (fun token => token.1.unplaced) =
        (words.toLexer.read {} "r+'#\nr#[a ]b]#'c d'").tokens.map fun token =>
          token.1.unplaced := by
  have hread : (words.toLexer.read {} "r+'#\nr#[a ]b]#'c d'").error = none := by decide +kernel
  have hprinted :
      Token.printed ((words.toLexer.read {} "r+'#\nr#[a ]b]#'c d'").tokens.map Prod.fst) =
        "r +'# r#[a ]b]# 'c d'" := by decide +kernel
  have hagain := read_printed {} {} hread
  rw [hprinted] at hagain
  exact ⟨hread, hprinted, hagain⟩

end Words

end Earley
