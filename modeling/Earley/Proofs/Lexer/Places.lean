import Earley.Proofs.Lexer.Scanner
import Earley.Proofs.Text.Position
import Mathlib.Data.String.Basic

/-!
# Places of tokens

The source texts of the tokens are parts of the text that is read, one behind the other, and nothing
but blanks stands outside of them. The place of a token tells which part its source text is: the offset
counts the bytes in front of it, the line the line feeds, and the column the characters behind the
last line feed. If reading fails, the report has everything from the quotation that cannot be read on.

A text that is read from a position on has its places counted from there.

## Main definitions

* `Token.limit`: the offset behind a token
* `Sited`: a token has the place of a part of the text
* `Reported`: a report has the rest of the text
* `Lossless`: a reading accounts for the whole text

## Main results

* `Alphabet.sited_of_mem`, `Alphabet.pairwise_reading`: the tokens of any scanner
* `Alphabet.isBlank_of_uncovered`: what is in no token is blank
* `Alphabet.reported_of_error`: the report of any scanner
* `lossless_read`: the lexer for words accounts for every text
-/

namespace Earley

open Words (lexemeToken faultError ruler tokenAt)

/-- The offset behind a token. -/
def Token.limit (t : Token) : Nat :=
  t.offset + t.literal.utf8ByteSize

/-- **A token has the place of a part of the text**, behind another part of it. -/
structure Sited (start : Position) (chunk before source : String) (t : Token) : Prop where
  chunk_eq : ∃ after, chunk = before ++ source ++ after
  offset : t.offset = start.offset + before.utf8ByteSize
  line : t.line = start.line + before.toList.count '\n'
  /-- The column counts from the last line feed, or from where the text begins. -/
  col : t.col = 1 + (before.toList.rtakeWhile (· ≠ '\n')).length +
    if '\n' ∈ before.toList then 0 else start.col

/-- **A report has the whole rest of the text** from a quotation on that cannot be read. -/
structure Reported (start : Position) (chunk : String) (e : LexError) (t : Token) : Prop where
  sited : ∃ before, chunk = before ++ t.value ∧ Sited start chunk before t.value t
  text : t.text = none
  kind : t.kind = some Lexeme.Kind.quote.name
  fails : ∃ c rest fault, t.value.toList = c :: rest ∧ Text.isBlank c = false ∧
    Lexeme.read c rest = .error fault ∧ e.message = fault.message

/-- **A reading accounts for the whole text.** -/
structure Lossless (start : Position) (chunk : String) (reading : Reading Position) : Prop where
  sited : ∀ token ∈ reading.tokens, ∃ before, Sited start chunk before token.1.literal token.1
  /-- The bytes of the text that a token takes are its source text. -/
  extract : ∀ token ∈ reading.tokens,
    String.Pos.Raw.extract chunk ⟨token.1.offset - start.offset⟩
      ⟨token.1.limit - start.offset⟩ = token.1.literal
  nonempty : ∀ token ∈ reading.tokens, token.1.literal ≠ ""
  apart : reading.tokens.Pairwise fun t u => t.1.limit ≤ u.1.offset
  /-- What stands in no token, and in front of the report if there is one, is blank. -/
  isBlank : ∀ before c after, chunk = before ++ String.singleton c ++ after →
    (∀ token ∈ reading.tokens, start.offset + before.utf8ByteSize < token.1.offset ∨
      token.1.limit ≤ start.offset + before.utf8ByteSize) →
    (∀ e ∈ reading.error, ∀ t ∈ e.token, start.offset + before.utf8ByteSize < t.offset) →
    Text.isBlank c = true
  /-- The report is behind all tokens. -/
  error : ∀ e ∈ reading.error, ∃ t ∈ e.token, Reported start chunk e t ∧
    ∀ token ∈ reading.tokens, token.1.limit ≤ t.offset

/-! ## Bytes and columns -/

namespace Words

variable (p : Position) (text : List Char)

theorem sum_width : (text.map ruler.width).sum = (String.ofList text).utf8ByteSize := by
  rw [String.utf8ByteSize_ofList]
  induction text with
  | nil => rfl
  | cons c rest ih =>
    have hwidth : ruler.width c = c.utf8Size := rfl
    rw [List.map_cons, List.sum_cons, ih, hwidth, String.utf8Len_cons, Nat.add_comm]

/-- Offsets count bytes. -/
theorem offset_behind :
    (p.behind ruler text).offset = p.offset + (String.ofList text).utf8ByteSize := by
  rw [Position.offset_behind, sum_width]

/-- Columns count characters. -/
theorem col_behind :
    (p.behind ruler text).col =
      (text.rtakeWhile (· ≠ '\n')).length + if '\n' ∈ text then 0 else p.col := by
  rw [Position.col_behind]
  show (· + 1)^[_] _ = _
  rw [add_right_iterate_apply, Nat.nsmul_eq_mul, Nat.mul_one, Nat.add_comm]

/-- The token of a lexeme has its source text beside the content, if it has content. -/
theorem lexemeToken_eq (l : Lexeme) :
    lexemeToken p l = tokenAt p l.kind (l.content.getD l.text) (l.content.map fun _ => l.text) := by
  unfold lexemeToken
  cases l.content <;> rfl

theorem offset_le_behind : p.offset ≤ (p.behind ruler text).offset := by
  rw [offset_behind]
  exact Nat.le_add_right _ _

@[simp] theorem offset_lexemeToken (l : Lexeme) : (lexemeToken p l).offset = p.offset := by
  rw [lexemeToken_eq]
  rfl

theorem limit_lexemeToken (l : Lexeme) :
    (lexemeToken p l).limit = (p.behind ruler l.text).offset := by
  rw [Token.limit, offset_lexemeToken, literal_lexemeToken, offset_behind]

end Words

open Words

variable {start : Position} {chunk before source : String}

/-- **A token that is made behind a part of the text** has its place there. -/
theorem sited_tokenAt (start : Position) (hchunk : ∃ after, chunk = before ++ source ++ after)
    (kind : Lexeme.Kind) (value : List Char) (text : Option (List Char)) :
    Sited start chunk before source
      (tokenAt (start.behind ruler before.toList) kind value text) where
  chunk_eq := hchunk
  offset := by
    show (start.behind ruler before.toList).offset = _
    rw [Words.offset_behind, String.ofList_toList]
  line := Position.line_behind ruler start before.toList
  col := by
    show (start.behind ruler before.toList).col + 1 = _
    rw [Words.col_behind]
    omega

/-- The bytes from the place of a token on are its source text. -/
theorem Sited.extract {t : Token} (h : Sited start chunk before t.literal t) :
    String.Pos.Raw.extract chunk ⟨t.offset - start.offset⟩ ⟨t.limit - start.offset⟩ =
      t.literal := by
  obtain ⟨after, hchunk⟩ := h.chunk_eq
  have hvalid := String.extract_of_valid before.toList t.literal.toList after.toList
  simp only [String.ofList_append, String.ofList_toList, ← String.utf8ByteSize_ofList] at hvalid
  rw [Token.limit, h.offset, Nat.add_assoc, Nat.add_sub_cancel_left, Nat.add_sub_cancel_left,
    hchunk, hvalid]

/-! ## Tokens and reports of a scanner -/

namespace Alphabet

variable {A : Alphabet} {c : Char} {rest behind text : List Char} {l : Lexeme}
  {fault : Quotation.Fault} {p : Position} {token : Token × Position}

/-- **Every token has the place of its source text.** -/
theorem sited_of_mem (h : token ∈ (A.reading start chunk.toList).tokens) :
    ∃ before, Sited start chunk before token.1.literal token.1 := by
  obtain ⟨before, l, after, hstands, htoken⟩ := exists_of_mem_reading h
  have hchunk : chunk = String.ofList before ++ String.ofList l.text ++ String.ofList after := by
    rw [← String.toList_inj, hstands.text_eq]
    simp
  refine ⟨String.ofList before, ?_⟩
  rw [htoken, literal_lexemeToken, lexemeToken_eq]
  have hsited := sited_tokenAt start ⟨_, hchunk⟩ l.kind (l.content.getD l.text)
    (l.content.map fun _ => l.text)
  rwa [String.toList_ofList] at hsited

/-- A token is made of some characters of the text. -/
theorem literal_ne_of_mem (h : token ∈ (A.reading p text).tokens) : token.1.literal ≠ "" := by
  obtain ⟨before, l, after, ⟨c, rest, -, hscan⟩, htoken⟩ := exists_of_mem_reading h
  rw [htoken, literal_lexemeToken]
  intro hempty
  have hnil : l.text = [] := by simpa using congrArg String.toList hempty
  exact text_ne_nil_of_scan hscan hnil

/-- A reading has no tokens in front of where it begins. -/
theorem offset_le_of_mem (h : token ∈ (A.reading p text).tokens) : p.offset ≤ token.1.offset := by
  obtain ⟨before, l, after, -, htoken⟩ := exists_of_mem_reading h
  rw [htoken, offset_lexemeToken]
  exact offset_le_behind p before

/-- **No token begins before those in front of it end.** -/
theorem pairwise_reading (p : Position) (text : List Char) :
    (A.reading p text).tokens.Pairwise fun t u => t.1.limit ≤ u.1.offset := by
  fun_induction A.reading p text with
  | case1 => exact .nil
  | case2 => exact .nil
  | case3 p c rest text behind hscan _ ih => exact ih
  | case4 p c rest l behind hscan _ _ ih =>
    refine .cons (fun token htoken => ?_) ih
    rw [limit_lexemeToken]
    exact offset_le_of_mem htoken

/-- A character of a text that is put together stands in the first part or in the second. -/
theorem split_append {front before after : List Char}
    (h : front ++ behind = before ++ c :: after) :
    (∃ mid, front = before ++ c :: mid) ∨
      ∃ before', before = front ++ before' ∧ behind = before' ++ c :: after := by
  rcases List.append_eq_append_iff.mp h with ⟨before', hbefore, hbehind⟩ | ⟨mid, hfront, hmid⟩
  · exact .inr ⟨before', hbefore, hbehind⟩
  · cases mid with
    | nil => exact .inr ⟨[], by simpa using hfront.symm, hmid.symm⟩
    | cons d mid =>
      obtain ⟨rfl, -⟩ := List.cons.inj hmid
      exact .inl ⟨mid, hfront⟩

/-- **What is not blank** stands in a token, or behind the beginning of the report. -/
theorem exists_covering (hc : A.isBlank c = false) (p : Position) (text : List Char) :
    ∀ before after, text = before ++ c :: after →
      (∃ token ∈ (A.reading p text).tokens, token.1.offset ≤ (p.behind ruler before).offset ∧
          (p.behind ruler before).offset < token.1.limit) ∨
        ∃ e ∈ (A.reading p text).error, ∃ t ∈ e.token,
          t.offset ≤ (p.behind ruler before).offset := by
  fun_induction A.reading p text with
  | case1 =>
    intro before after htext
    exact absurd htext.symm (by simp)
  | case2 p d rest fault hscan =>
    intro before after _
    exact .inr ⟨_, rfl, _, rfl, offset_le_behind p before⟩
  | case3 p d rest text behind hscan _ ih =>
    intro before after htext
    rw [← text_append_of_scan hscan] at htext
    -- among blanks there is no such character, so it stands behind them
    rcases split_append htext with ⟨mid, hmid⟩ | ⟨before', rfl, hbehind⟩
    · have hblank := isBlank_of_scan hscan c (by simp [show text = _ from hmid])
      rw [hblank] at hc
      cases hc
    · rw [Position.behind_append]
      exact ih before' after hbehind
  | case4 p d rest l behind hscan _ _ ih =>
    intro before after htext
    rw [← text_append_of_scan hscan] at htext
    -- in the lexeme it is covered by the first token
    rcases split_append htext with ⟨mid, hmid⟩ | ⟨before', rfl, hbehind⟩
    · have hlt := offset_lt_behind (List.cons_ne_nil c mid) (p.behind ruler before)
      rw [← Position.behind_append, ← show l.text = _ from hmid, ← limit_lexemeToken] at hlt
      refine .inl ⟨_, List.mem_cons_self, ?_, hlt⟩
      rw [offset_lexemeToken]
      exact offset_le_behind p before
    · rw [Position.behind_append]
      rcases ih before' after hbehind with ⟨token, htoken, hrange⟩ | herror
      · exact .inl ⟨token, List.mem_cons_of_mem _ htoken, hrange⟩
      · exact .inr herror

/-- What cannot be scanned is a quotation that cannot be read. -/
theorem read?_of_scan_error (h : A.scan c rest = .error fault) :
    Quotation.read? c rest = some (.error fault) := by
  unfold scan at h
  split at h
  · next result hread =>
    cases result with
    | error fault' => rw [hread, Except.error.inj h]
    | ok result => exact nomatch h
  · exact nomatch h

/-- **A reading fails at a quotation** that cannot be read, behind all tokens. -/
theorem exists_of_error_reading {e : LexError} (h : e ∈ (A.reading p text).error) :
    ∃ before c rest fault, text = before ++ c :: rest ∧
      Quotation.read? c rest = some (.error fault) ∧
      e = faultError (p.behind ruler before) fault (c :: rest) ∧
      ∀ token ∈ (A.reading p text).tokens, token.1.limit ≤ (p.behind ruler before).offset := by
  fun_induction A.reading p text with
  | case1 => cases h
  | case2 p c rest fault hscan =>
    exact ⟨[], c, rest, fault, rfl, read?_of_scan_error hscan, (Option.some.inj h).symm, by simp⟩
  | case3 p c rest text behind hscan _ ih =>
    obtain ⟨before, c', rest', fault, rfl, hread, he, hends⟩ := ih h
    refine ⟨text ++ before, c', rest', fault, ?_, hread, ?_, ?_⟩
    · rw [← text_append_of_scan hscan, List.append_assoc]
      rfl
    · rw [he, Position.behind_append]
    · rwa [Position.behind_append]
  | case4 p c rest l behind hscan _ _ ih =>
    obtain ⟨before, c', rest', fault, rfl, hread, he, hends⟩ := ih h
    refine ⟨l.text ++ before, c', rest', fault, ?_, hread, ?_, ?_⟩
    · rw [← text_append_of_scan hscan, List.append_assoc]
      rfl
    · rw [he, Position.behind_append]
    · rw [Position.behind_append]
      refine List.forall_mem_cons.mpr ⟨?_, hends⟩
      rw [limit_lexemeToken]
      exact offset_le_behind _ before

/-- **The report of a reading** has the place of the rest of the text. -/
theorem reported_of_error {e : LexError} (h : e ∈ (A.reading start chunk.toList).error) :
    ∃ t ∈ e.token, Reported start chunk e t ∧
      ∀ token ∈ (A.reading start chunk.toList).tokens, token.1.limit ≤ t.offset := by
  obtain ⟨before, c, rest, fault, htext, hread, rfl, hends⟩ := exists_of_error_reading h
  have hchunk : chunk = String.ofList before ++ String.ofList (c :: rest) := by
    rw [← String.toList_inj, htext]
    simp
  have hwhole : chunk = String.ofList before ++ String.ofList (c :: rest) ++ "" := by
    rw [String.append_empty, hchunk]
  have hsited := sited_tokenAt start ⟨"", hwhole⟩ .quote (c :: rest) none
  rw [String.toList_ofList] at hsited
  -- a quotation begins there, and none begins with a blank
  have hblank : Text.isBlank c = false := by
    apply Bool.eq_false_iff.mpr
    intro hblank
    rw [Quotation.read?_of_isBlank hblank] at hread
    exact nomatch hread
  refine ⟨_, rfl, ⟨⟨_, hchunk, hsited⟩, rfl, rfl, ?_⟩, hends⟩
  exact ⟨c, rest, fault, String.toList_ofList, hblank, Quotation.read_of_read? hread, rfl⟩

/-- **What is in no token**, and in front of the report if there is one, is blank. -/
theorem isBlank_of_uncovered {before after : String}
    (hchunk : chunk = before ++ String.singleton c ++ after)
    (htokens : ∀ token ∈ (A.reading start chunk.toList).tokens,
      start.offset + before.utf8ByteSize < token.1.offset ∨
        token.1.limit ≤ start.offset + before.utf8ByteSize)
    (herror : ∀ e ∈ (A.reading start chunk.toList).error, ∀ t ∈ e.token,
      start.offset + before.utf8ByteSize < t.offset) :
    A.isBlank c = true := by
  by_contra hblank
  have htext : chunk.toList = before.toList ++ c :: after.toList := by simp [hchunk]
  have hoffset := Words.offset_behind start before.toList
  rw [String.ofList_toList] at hoffset
  rcases exists_covering (Bool.eq_false_iff.mpr hblank) start _ _ _ htext with
    ⟨token, htoken, hfirst, hlimit⟩ | ⟨e, he, t, ht, hfirst⟩
  · have := htokens token htoken
    omega
  · have := herror e he t ht
    omega

end Alphabet

/-- **The lexer for words accounts for every text.** -/
theorem lossless_read (start : Position) (chunk : String) :
    Lossless start chunk (words.toLexer.read start chunk) := by
  rw [read_eq, ← Alphabet.reading_unicode]
  exact {
    sited := fun _ => Alphabet.sited_of_mem
    extract := by
      intro token htoken
      obtain ⟨before, hsited⟩ := Alphabet.sited_of_mem htoken
      exact hsited.extract
    nonempty := fun _ => Alphabet.literal_ne_of_mem
    apart := Alphabet.pairwise_reading start chunk.toList
    isBlank := fun _ _ _ => Alphabet.isBlank_of_uncovered
    error := fun _ => Alphabet.reported_of_error }

/-- A letter of two bytes within a line, and a quotation on the next line that nothing ends. -/
theorem lossless_read_torn :
    let start : Position := { line := 3, col := 4, offset := 10 }
    let reading := words.toLexer.read start "é \n'x"
    Lossless start "é \n'x" reading ∧
      reading.tokens.map (fun token =>
        (token.1.literal, token.1.offset, token.1.line, token.1.col)) = [("é", 10, 3, 5)] ∧
      (reading.error.bind LexError.token).map (fun t => (t.value, t.offset, t.line, t.col)) =
        some ("'x", 14, 4, 1) :=
  ⟨lossless_read _ _, by decide +kernel, by decide +kernel⟩

end Earley
