import Earley.Proofs.Lexer.Places

/-!
# Classes of tokens

What a token is made of depends on its kind: identifiers and numbers of letters and digits, operators
of all that is neither a letter nor a digit, nor blank, nor a bracket. A token is as long as it can be:
what follows an identifier, a number or an operator could not go on with it. All this holds whatever
the tables say of which characters are letters, digits, blanks and brackets.

## Main definitions

* `Alphabet.Classed`: a lexeme as its kind asks

## Main results

* `Alphabet.classed_of_scan`: every lexeme that is scanned is as its kind asks
* `Alphabet.tokens_classed`: so is every token of a text
-/

namespace Earley.Alphabet

open Words (lexemeToken lexemeToken_eq literal_lexemeToken offset_lexemeToken reading_word ruler)

variable {A : Alphabet} {c : Char} {rest behind text after : List Char} {l : Lexeme}
  {p : Position} {token : Token × Position}

/-- **A word of letters and digits**, in front of a text that does not go on with it. -/
structure Word (A : Alphabet) (text after : List Char) : Prop where
  alphanumeric : ∀ c ∈ text, A.isAlphanumeric c = true
  ends : ∀ next ∈ after.head?, A.isAlphanumeric next = false

/-- **A lexeme as its kind asks**, in front of a text. -/
def Classed (A : Alphabet) : Lexeme.Kind → (text after : List Char) → Prop
  | .ident, text, after => A.Word text after ∧
      ∃ first ∈ text.head?, A.isAlphabetic first = true ∧ A.isNumeric first = false
  | .number, text, after => A.Word text after ∧ ∃ first ∈ text.head?, A.isNumeric first = true
  | .op, text, after => text ≠ [] ∧
      (∀ c ∈ text, A.isAlphanumeric c = false ∧ A.isBlank c = false ∧ A.isBracket c = false) ∧
      ∀ next ∈ after.head?, A.isOperative next = false
  | .bracket, text, _ => ∃ c, text = [c] ∧ A.isBracket c = true
  | .quote, text, after => Quotation.begins (text ++ after) = true

theorem isOperative_iff :
    A.isOperative c = true ↔
      A.isAlphanumeric c = false ∧ A.isBlank c = false ∧ A.isBracket c = false := by
  simp [isOperative, and_assoc]

/-! ## The first character -/

theorem isNumeric_of_stretchOf (h : A.stretchOf c = .number) : A.isNumeric c = true := by
  unfold stretchOf at h
  split_ifs at h
  assumption

theorem isAlphabetic_of_stretchOf (h : A.stretchOf c = .ident) :
    A.isAlphabetic c = true ∧ A.isNumeric c = false := by
  unfold stretchOf at h
  split_ifs at h with hnumeric halphabetic
  exact ⟨halphabetic, Bool.eq_false_iff.mpr hnumeric⟩

theorem isBracket_of_stretchOf (h : A.stretchOf c = .bracket) : A.isBracket c = true := by
  unfold stretchOf at h
  split_ifs at h
  assumption

/-! ## The stretch -/

/-- What follows a run does not go on with it. -/
theorem eq_false_of_mem_head? {goesOn : Char → Bool} {next : Char}
    (h : next ∈ (rest.dropWhile goesOn).head?) : goesOn next = false := by
  have hhead := List.head?_dropWhile_not goesOn rest
  rw [Option.mem_def.mp h] at hhead
  simpa using hhead

/-- **Every stretch of text is as its kind asks.** -/
theorem classed_of_scanStretch (h : A.scanStretch c rest = (.lexeme l, behind)) :
    A.Classed l.kind l.text behind ∧ l.kind ≠ .quote ∧ l.content = none := by
  obtain ⟨hpiece, rfl⟩ := Prod.mk.inj h
  -- by the class that was found first; the test for what goes on is that of the same class
  cases hstretch : A.stretchOf c with
  | number =>
    rw [hstretch] at hpiece
    obtain rfl := Piece.lexeme.inj hpiece
    exact ⟨⟨⟨goesOn_of_mem hstretch nofun, fun _ => eq_false_of_mem_head?⟩,
      c, rfl, isNumeric_of_stretchOf hstretch⟩, nofun, rfl⟩
  | ident =>
    rw [hstretch] at hpiece
    obtain rfl := Piece.lexeme.inj hpiece
    exact ⟨⟨⟨goesOn_of_mem hstretch nofun, fun _ => eq_false_of_mem_head?⟩,
      c, rfl, isAlphabetic_of_stretchOf hstretch⟩, nofun, rfl⟩
  | blanks =>
    rw [hstretch] at hpiece
    exact nomatch hpiece
  | bracket =>
    rw [hstretch, takeWhile_bracket] at hpiece
    obtain rfl := Piece.lexeme.inj hpiece
    exact ⟨⟨c, rfl, isBracket_of_stretchOf hstretch⟩, nofun, rfl⟩
  | op =>
    rw [hstretch] at hpiece
    obtain rfl := Piece.lexeme.inj hpiece
    refine ⟨⟨List.cons_ne_nil _ _, ?_, fun _ => eq_false_of_mem_head?⟩, nofun, rfl⟩
    intro d hd
    exact isOperative_iff.mp (goesOn_of_mem hstretch nofun d hd)

/-- **Every lexeme that is scanned is as its kind asks.** If it is no quotation, it has no content, and
no quotation begins where it does. -/
theorem classed_of_scan (h : A.scan c rest = .ok (.lexeme l, behind)) :
    A.Classed l.kind l.text behind ∧
      (l.kind ≠ .quote → l.content = none ∧ Quotation.begins (l.text ++ behind) = false) := by
  have htext : l.text ++ behind = c :: rest := text_append_of_scan h
  rw [htext]
  rcases scan_cases h with ⟨l', hl, hread⟩ | ⟨hread, hstretch⟩
  · obtain rfl := Piece.lexeme.inj hl
    have hkind : l.kind = .quote := Quotation.kind_of_read? hread
    have hbegins : Quotation.begins (l.text ++ behind) = true := by
      rw [htext, Quotation.begins, hread, Option.isSome_some]
    rw [hkind]
    exact ⟨hbegins, fun hne => absurd rfl hne⟩
  · obtain ⟨hclassed, -, hcontent⟩ := classed_of_scanStretch hstretch
    have hbegins : Quotation.begins (c :: rest) = false := by
      rw [Quotation.begins, hread, Option.isSome_none]
    exact ⟨hclassed, fun _ => ⟨hcontent, hbegins⟩⟩

/-! ## The tokens of a text -/

/-- **Every token of a text is as its kind asks**, with any tables: where it stands in the text, in
front of what follows it there. The lexer for words scans with the tables of this library. -/
theorem tokens_classed :
    (∀ p (chunk : String), words.toLexer.read p chunk = unicode.reading p chunk.toList) ∧
      ∀ (A : Alphabet) (p : Position) (chunk : String),
        ∀ token ∈ (A.reading p chunk.toList).tokens,
          ∃ kind before after, token.1.kind = some (Lexeme.Kind.name kind) ∧
            chunk = before ++ token.1.literal ++ after ∧
            token.1.offset = p.offset + before.utf8ByteSize ∧
            (kind ≠ .quote → token.1.text = none ∧
              Quotation.begins (token.1.literal.toList ++ after.toList) = false) ∧
            A.Classed kind token.1.literal.toList after.toList := by
  refine ⟨fun p chunk => (reading_unicode p chunk.toList).symm, ?_⟩
  intro A p chunk token htoken
  obtain ⟨before, l, after, hstands, htoken⟩ := exists_of_mem_reading htoken
  have htext := hstands.text_eq
  obtain ⟨c, rest, -, hscan⟩ := hstands
  obtain ⟨hclassed, hcontent⟩ := classed_of_scan hscan
  rw [htoken, literal_lexemeToken, offset_lexemeToken, lexemeToken_eq, String.toList_ofList]
  refine ⟨l.kind, String.ofList before, String.ofList after, rfl, ?_, Words.offset_behind p before,
    ?_, ?_⟩
  · rw [← String.toList_inj, htext]
    simp
  · intro hkind
    obtain ⟨hnone, hbegins⟩ := hcontent hkind
    rw [hnone, String.toList_ofList]
    exact ⟨rfl, hbegins⟩
  · rwa [String.toList_ofList]

/-- An identifier in front of an operator. -/
theorem tokens_classed_sum :
    (lexemeToken {} { kind := .ident, text := ['r', '1'] }, Position.behind ruler {} ['r', '1']) ∈
        (unicode.reading {} "r1+(".toList).tokens ∧
      ∃ kind before after, some "ident" = some (Lexeme.Kind.name kind) ∧
        "r1+(" = before ++ "r1" ++ after ∧ 0 = 0 + before.utf8ByteSize ∧
        (kind ≠ .quote → (none : Option String) = none ∧
          Quotation.begins ("r1".toList ++ after.toList) = false) ∧
        unicode.Classed kind "r1".toList after.toList := by
  have hread : Lexeme.read 'r' ['1', '+', '('] =
      .ok ({ kind := .ident, text := ['r', '1'] }, ['+', '(']) := by decide +kernel
  have hmem : (lexemeToken {} { kind := .ident, text := ['r', '1'] },
      Position.behind ruler {} ['r', '1']) ∈ (unicode.reading {} "r1+(".toList).tokens := by
    show _ ∈ (unicode.reading {} ['r', '1', '+', '(']).tokens
    rw [reading_unicode, reading_word (by decide +kernel) hread]
    exact List.mem_cons_self
  exact ⟨hmem, tokens_classed.2 unicode {} "r1+(" _ hmem⟩

end Earley.Alphabet
