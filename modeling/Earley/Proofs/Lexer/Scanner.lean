import Earley.Proofs.Lexer.Words

/-!
# Scanning

A scanner takes one piece of a text after the other: blanks, or a lexeme. A quotation shows in how it
begins. Otherwise the first character decides what a piece is, by classes of characters that are
looked up one after the other, and the piece goes on as far as the characters do that may follow. The
classes come from tables, and it is of no account what the tables say: a character may even be in
several classes.

With the tables of this library, the lexer for words is such a scanner.

## Main definitions

* `Quotation.read?`, `Quotation.begins`: the quotation that begins with a character, if one does
* `Alphabet`: the classes of characters that a scanner looks up
* `Alphabet.stretchOf`, `Alphabet.goesOn`: what a piece is by its first character, and how it goes on
* `Alphabet.scan`: the piece at the start of a text
* `Alphabet.reading`: what comes of scanning a text
* `Alphabet.unicode`: the classes of this library

## Main results

* `Alphabet.goesOn_stretchOf`: a stretch could go on with the character that begins it
* `Alphabet.exists_of_mem_reading`: every token is that of a lexeme somewhere in the text
* `Alphabet.reading_unicode`: the lexer for words is a scanner
-/

namespace Earley

open Words (lexemeToken faultError ruler)

/-! ## Quotations -/

namespace Quotation

variable {c : Char} {rest behind : List Char} {l : Lexeme}
  {result : Except Fault (Lexeme × List Char)}

/-- The quotation that begins with a character, if one does, and what follows it. -/
def read? (c : Char) (rest : List Char) : Option (Except Fault (Lexeme × List Char)) :=
  if c == 'r' && opensRaw rest then some (readRaw rest)
  else if isPlainQuote c then some (readPlain c rest)
  else none

/-- Whether a quotation begins a text. -/
def begins : List Char → Bool
  | [] => false
  | c :: rest => (read? c rest).isSome

/-- A lexeme is a quotation if one begins there, and a word if not. -/
theorem read_eq_getD (c : Char) (rest : List Char) :
    Lexeme.read c rest = (read? c rest).getD (.ok (Lexeme.readWord c rest)) := by
  unfold Lexeme.read read?
  split_ifs <;> rfl

theorem read_of_read? (h : read? c rest = some result) : Lexeme.read c rest = result := by
  rw [read_eq_getD, h, Option.getD_some]

theorem kind_of_read? (h : read? c rest = some (.ok (l, behind))) : l.kind = .quote := by
  unfold read? readRaw readPlain at h
  grind

/-- No quotation begins with a blank. -/
theorem read?_of_isBlank (hc : Text.isBlank c = true) (rest : List Char) : read? c rest = none := by
  have hne : ∀ d, Text.isBlank d = false → (c == d) = false := by
    intro d hd
    apply Bool.eq_false_iff.mpr
    intro hcd
    rw [eq_of_beq hcd, hd] at hc
    exact nomatch hc
  have hr : (c == 'r') = false := hne 'r' (by decide +kernel)
  have hdouble : (c == '\x22') = false := hne '\x22' (by decide +kernel)
  have hsingle : (c == '\x27') = false := hne '\x27' (by decide +kernel)
  simp [read?, isPlainQuote, hr, hdouble, hsingle]

end Quotation

/-! ## Pieces of a text -/

/-- **The classes of characters** that a scanner looks up. -/
structure Alphabet where
  isNumeric : Char → Bool
  isAlphabetic : Char → Bool
  isBlank : Char → Bool
  isBracket : Char → Bool

/-- **What a piece of a text is** by its first character, if it is no quotation. -/
inductive Stretch where
  | number
  | ident
  | blanks
  | bracket
  | op
deriving DecidableEq

/-- **A piece of a text**: blanks, or a lexeme. -/
inductive Piece where
  | blanks (text : List Char)
  | lexeme (l : Lexeme)

/-- What a piece takes of the text. -/
def Piece.text : Piece → List Char
  | blanks text => text
  | lexeme l => l.text

/-- The piece that a stretch of text is. -/
def Stretch.piece (text : List Char) : Stretch → Piece
  | number => .lexeme { kind := .number, text }
  | ident => .lexeme { kind := .ident, text }
  | blanks => .blanks text
  | bracket => .lexeme { kind := .bracket, text }
  | op => .lexeme { kind := .op, text }

@[simp] theorem Stretch.text_piece (stretch : Stretch) (text : List Char) :
    (stretch.piece text).text = text := by
  cases stretch <;> rfl

namespace Alphabet

variable (A : Alphabet)

/-- Whether a character may go on with an identifier or a number. -/
def isAlphanumeric (c : Char) : Bool :=
  A.isAlphabetic c || A.isNumeric c

/-- Whether a character may stand in an operator. -/
def isOperative (c : Char) : Bool :=
  !A.isAlphanumeric c && !A.isBlank c && !A.isBracket c

/-- **What a piece is by its first character.** The classes are looked up one after the other. -/
def stretchOf (c : Char) : Stretch :=
  if A.isNumeric c then .number
  else if A.isAlphabetic c then .ident
  else if A.isBlank c then .blanks
  else if A.isBracket c then .bracket
  else .op

/-- **Whether a character goes on** with a stretch. A bracket stands alone. -/
def goesOn : Stretch → Char → Bool
  | .number, c => A.isAlphanumeric c
  | .ident, c => A.isAlphanumeric c
  | .blanks, c => A.isBlank c
  | .bracket, _ => false
  | .op, c => A.isOperative c

/-- The stretch that begins with a character, and what follows it. -/
def scanStretch (c : Char) (rest : List Char) : Piece × List Char :=
  let stretch := A.stretchOf c
  (stretch.piece (c :: rest.takeWhile (A.goesOn stretch)), rest.dropWhile (A.goesOn stretch))

/-- **The piece that begins with a character**, and what follows it. -/
def scan (c : Char) (rest : List Char) : Except Quotation.Fault (Piece × List Char) :=
  match Quotation.read? c rest with
  | some result => result.map fun (l, behind) => (.lexeme l, behind)
  | none => .ok (A.scanStretch c rest)

variable {A} {c : Char} {rest behind text : List Char} {piece : Piece} {l : Lexeme}
  {fault : Quotation.Fault} {p : Position} {token : Token × Position}

/-- Nothing goes on with a bracket. -/
theorem takeWhile_bracket (rest : List Char) : rest.takeWhile (A.goesOn .bracket) = [] := by
  cases rest <;> rfl

theorem dropWhile_bracket (rest : List Char) : rest.dropWhile (A.goesOn .bracket) = rest := by
  cases rest <;> rfl

/-- **The two ways in which a piece comes about.** -/
theorem scan_cases (h : A.scan c rest = .ok (piece, behind)) :
    (∃ l, piece = .lexeme l ∧ Quotation.read? c rest = some (.ok (l, behind))) ∨
      Quotation.read? c rest = none ∧ A.scanStretch c rest = (piece, behind) := by
  unfold scan at h
  cases hread : Quotation.read? c rest with
  | none =>
    rw [hread] at h
    exact .inr ⟨rfl, Except.ok.inj h⟩
  | some result =>
    rw [hread] at h
    cases result with
    | error fault => exact nomatch h
    | ok result =>
      obtain ⟨l, behind'⟩ := result
      obtain ⟨rfl, rfl⟩ := Prod.mk.inj (Except.ok.inj h)
      exact .inl ⟨l, rfl, rfl⟩

/-- **A piece and what is left make up the text.** -/
theorem text_append_of_scan (h : A.scan c rest = .ok (piece, behind)) :
    piece.text ++ behind = c :: rest := by
  rcases scan_cases h with ⟨l, rfl, hread⟩ | ⟨-, hstretch⟩
  · exact Lexeme.text_append_of_read (Quotation.read_of_read? hread)
  · obtain ⟨rfl, rfl⟩ := Prod.mk.inj hstretch
    rw [Stretch.text_piece, List.cons_append, List.takeWhile_append_dropWhile]

/-- A piece takes at least its first character. -/
theorem text_ne_nil_of_scan (h : A.scan c rest = .ok (piece, behind)) : piece.text ≠ [] := by
  rcases scan_cases h with ⟨l, rfl, hread⟩ | ⟨-, hstretch⟩
  · exact Lexeme.text_ne_nil_of_read (Quotation.read_of_read? hread)
  · obtain ⟨rfl, -⟩ := Prod.mk.inj hstretch
    rw [Stretch.text_piece]
    exact List.cons_ne_nil _ _

theorem length_lt_of_scan (h : A.scan c rest = .ok (piece, behind)) :
    behind.length < (c :: rest).length := by
  have := List.length_pos_iff.mpr (text_ne_nil_of_scan h)
  rw [← text_append_of_scan h, List.length_append]
  omega

/-- **A stretch could go on with the character that begins it**, unless that is a bracket: the tests
for the first character and for the others are of a piece. -/
theorem goesOn_stretchOf (h : A.stretchOf c ≠ .bracket) : A.goesOn (A.stretchOf c) c = true := by
  unfold stretchOf at h ⊢
  split_ifs at h ⊢ with hnumeric halphabetic hblank hbracket
  · simp [goesOn, isAlphanumeric, hnumeric]
  · simp [goesOn, isAlphanumeric, halphabetic]
  · simpa [goesOn] using hblank
  · exact absurd rfl h
  · simp [goesOn, isOperative, isAlphanumeric, hnumeric, halphabetic, hblank, hbracket]

/-- All of a stretch goes on with it. -/
theorem goesOn_of_mem {stretch : Stretch} (hstretch : A.stretchOf c = stretch)
    (hne : stretch ≠ .bracket) :
    ∀ d ∈ c :: rest.takeWhile (A.goesOn stretch), A.goesOn stretch d = true := by
  subst hstretch
  exact List.forall_mem_cons.mpr
    ⟨goesOn_stretchOf hne, fun _ hd => List.all_eq_true.mp List.all_takeWhile _ hd⟩

/-- Blanks are blank. -/
theorem isBlank_of_scan (h : A.scan c rest = .ok (.blanks text, behind)) :
    ∀ d ∈ text, A.isBlank d = true := by
  rcases scan_cases h with ⟨l, hpiece, -⟩ | ⟨-, hscan⟩
  · exact nomatch hpiece
  · have hpiece := (Prod.mk.inj hscan).1
    cases hstretch : A.stretchOf c with
    | blanks =>
      rw [hstretch] at hpiece
      obtain rfl := Piece.blanks.inj hpiece
      exact goesOn_of_mem hstretch nofun
    | _ =>
      rw [hstretch] at hpiece
      exact nomatch hpiece

/-! ## Scanning a text -/

variable (A) in
/-- **What comes of scanning a text** from a position on: a token for each lexeme, up to the end or to
a quotation that cannot be read. -/
def reading (p : Position) : List Char → Reading Position
  | [] => { tokens := [], stand := p }
  | c :: rest =>
    match h : A.scan c rest with
    | .error fault => { tokens := [], stand := p, error := some (faultError p fault (c :: rest)) }
    | .ok (.blanks text, behind) =>
      have := length_lt_of_scan h
      reading (p.behind ruler text) behind
    | .ok (.lexeme l, behind) =>
      have := length_lt_of_scan h
      let later := reading (p.behind ruler l.text) behind
      { later with tokens := (lexemeToken p l, p.behind ruler l.text) :: later.tokens }
termination_by text => text.length
decreasing_by all_goals assumption

theorem reading_nil (p : Position) : A.reading p [] = { tokens := [], stand := p } := by
  rw [reading]

theorem reading_fault (h : A.scan c rest = .error fault) (p : Position) :
    A.reading p (c :: rest) =
      { tokens := [], stand := p, error := some (faultError p fault (c :: rest)) } := by
  rw [reading]
  split <;> simp_all

theorem reading_blanks (h : A.scan c rest = .ok (.blanks text, behind)) (p : Position) :
    A.reading p (c :: rest) = A.reading (p.behind ruler text) behind := by
  rw [reading]
  split <;> simp_all

theorem reading_lexeme (h : A.scan c rest = .ok (.lexeme l, behind)) (p : Position) :
    A.reading p (c :: rest) =
      { A.reading (p.behind ruler l.text) behind with
        tokens := (lexemeToken p l, p.behind ruler l.text) ::
          (A.reading (p.behind ruler l.text) behind).tokens } := by
  rw [reading]
  split <;> simp_all

/-! ## Lexemes in a text -/

variable (A) in
/-- **A lexeme stands in a text** between what comes before and what comes after. -/
def Stands (text before : List Char) (l : Lexeme) (after : List Char) : Prop :=
  ∃ c rest, text = before ++ c :: rest ∧ A.scan c rest = .ok (.lexeme l, after)

theorem Stands.text_eq {before after : List Char} (h : A.Stands text before l after) :
    text = before ++ (l.text ++ after) := by
  obtain ⟨c, rest, rfl, hscan⟩ := h
  have hpiece : l.text ++ after = c :: rest := text_append_of_scan hscan
  rw [hpiece]

theorem Stands.append {before after : List Char} (h : A.Stands text before l after)
    (front : List Char) : A.Stands (front ++ text) (front ++ before) l after := by
  obtain ⟨c, rest, rfl, hscan⟩ := h
  exact ⟨c, rest, by rw [List.append_assoc], hscan⟩

/-- **Every token is that of a lexeme** that stands in the text. -/
theorem exists_of_mem_reading (h : token ∈ (A.reading p text).tokens) :
    ∃ before l after, A.Stands text before l after ∧
      token.1 = lexemeToken (p.behind ruler before) l := by
  fun_induction A.reading p text with
  | case1 => exact nomatch h
  | case2 => exact nomatch h
  | case3 p c rest text behind hscan _ ih =>
    obtain ⟨before, l, after, hstands, htoken⟩ := ih h
    rw [← text_append_of_scan hscan]
    refine ⟨text ++ before, l, after, hstands.append text, ?_⟩
    rw [Position.behind_append, htoken]
  | case4 p c rest l behind hscan _ _ ih =>
    rcases List.mem_cons.mp h with rfl | hlater
    · exact ⟨[], l, behind, ⟨c, rest, rfl, hscan⟩, rfl⟩
    · obtain ⟨before, l', after, hstands, htoken⟩ := ih hlater
      rw [← text_append_of_scan hscan]
      refine ⟨l.text ++ before, l', after, hstands.append l.text, ?_⟩
      rw [Position.behind_append, htoken]

/-! ## The lexer for words -/

/-- The classes of this library. -/
def unicode : Alphabet where
  isNumeric := Text.isNumeric
  isAlphabetic := Text.isAlphabetic
  isBlank := Text.isBlank
  isBracket := Text.isBracket

/-- A blank is neither a letter nor a number, so it begins a stretch of blanks. -/
theorem scan_unicode_of_isBlank (hc : Text.isBlank c = true) (rest : List Char) :
    unicode.scan c rest =
      .ok (.blanks (c :: rest.takeWhile Text.isBlank), rest.dropWhile Text.isBlank) := by
  have hstretch : unicode.stretchOf c = .blanks := by
    simp [stretchOf, unicode, hc, Text.isNumeric_of_isBlank hc, Text.isAlphabetic_of_isBlank hc]
  rw [scan, Quotation.read?_of_isBlank hc, scanStretch, hstretch]
  rfl

/-- What is not blank begins a lexeme. -/
theorem scan_unicode (hc : Text.isBlank c = false) (rest : List Char) :
    unicode.scan c rest =
      (Lexeme.read c rest).map fun (l, behind) => (.lexeme l, behind) := by
  rw [scan, Quotation.read_eq_getD]
  cases Quotation.read? c rest with
  | some result => rfl
  | none =>
    have hblank : unicode.isBlank c = false := hc
    have hstretch : unicode.stretchOf c =
        if Text.isNumeric c then .number else if Text.isAlphabetic c then .ident
        else if Text.isBracket c then .bracket else .op := by
      simp only [stretchOf, hblank]
      rfl
    simp only [Option.getD_none, scanStretch, hstretch, Lexeme.readWord]
    split_ifs
    · rfl
    · rfl
    · rw [takeWhile_bracket, dropWhile_bracket]
      rfl
    · rfl

/-- Blanks are passed over one by one as well as together. -/
theorem reading_unicode_blank (hc : Text.isBlank c = true) (rest : List Char) (p : Position) :
    unicode.reading p (c :: rest) = unicode.reading (p.step ruler c) rest := by
  rw [reading_blanks (scan_unicode_of_isBlank hc rest)]
  cases rest with
  | nil => rfl
  | cons d rest =>
    cases hd : Text.isBlank d with
    | true =>
      rw [reading_blanks (scan_unicode_of_isBlank hd rest)]
      simp [hd]
    | false => simp [hd]

/-- **The lexer for words is a scanner** with the classes of this library. -/
theorem reading_unicode (p : Position) (text : List Char) :
    unicode.reading p text = Words.reading p text := by
  have hcut := Words.cut text
  -- the scanner takes blanks together that the lexer passes over one by one
  induction hcut generalizing p with
  | nil => rw [reading_nil, Words.reading_nil]
  | blank hc _ ih => rw [reading_unicode_blank hc, Words.reading_blank hc, ih]
  | fault hc hread =>
    rw [reading_fault (by rw [scan_unicode hc, hread]; rfl), Words.reading_fault hc hread]
  | word hc hread _ ih =>
    rw [reading_lexeme (by rw [scan_unicode hc, hread]; rfl), Words.reading_word hc hread, ih]

end Alphabet

end Earley
