import Earley.Lexer.Lexeme
import Mathlib.Tactic.SplitIfs

/-!
# Where lexemes end

Where a lexeme ends depends on the character behind it only, and a blank ends every lexeme that is
not a quotation: no blank is alphabetic or numeric, none stands in an operator, and none can make a
quotation of an `r`. No lexeme ends with a blank itself.

## Main results

* `Lexeme.isAlphanumeric_of_isBlank`, `Lexeme.isOperative_of_isBlank`: a blank ends runs
* `Lexeme.read_append`: what follows a lexeme leaves it as it is
* `Lexeme.not_isBlank_of_read`: a lexeme does not end with a blank
-/

namespace Earley

open Text (isBlank)

/-! ## Blanks -/

namespace Text

/-- A code point of a set lies in one of its spans. -/
theorem CodePoints.exists_of_has {spans : CodePoints} {c : Nat} (h : spans.has c = true) :
    ∃ a ∈ spans, a.1 ≤ c ∧ c ≤ a.2 := by
  induction spans with
  | nil => exact nomatch h
  | cons a rest ih =>
    simp only [has, Bool.and_eq_true, decide_eq_true_eq, Bool.or_eq_true] at h
    obtain ⟨hfirst, hlast | hrest⟩ := h
    · exact ⟨a, by simp, hfirst, hlast⟩
    · obtain ⟨b, hb, hspan⟩ := ih hrest
      exact ⟨b, by simp [hb], hspan⟩

/-- Sets whose spans lie apart have no code point in common. -/
theorem CodePoints.has_eq_false {spans others : CodePoints} {c : Nat}
    (hapart : ∀ a ∈ spans, ∀ b ∈ others, a.2 < b.1 ∨ b.2 < a.1) (h : spans.has c = true) :
    others.has c = false := by
  apply Bool.eq_false_iff.mpr
  intro hother
  obtain ⟨a, ha, hspan⟩ := exists_of_has h
  obtain ⟨b, hb, hspan'⟩ := exists_of_has hother
  have := hapart a ha b hb
  omega

theorem isAlphabetic_of_isBlank {c : Char} (h : isBlank c = true) : isAlphabetic c = false :=
  CodePoints.has_eq_false (by decide +kernel) h

theorem isNumeric_of_isBlank {c : Char} (h : isBlank c = true) : isNumeric c = false :=
  CodePoints.has_eq_false (by decide +kernel) h

end Text

namespace Lexeme

/-- A blank ends identifiers and numbers. -/
theorem isAlphanumeric_of_isBlank {c : Char} (h : isBlank c = true) : isAlphanumeric c = false := by
  simp [isAlphanumeric, Text.isAlphabetic_of_isBlank h, Text.isNumeric_of_isBlank h]

/-- A blank ends operators. -/
theorem isOperative_of_isBlank {c : Char} (h : isBlank c = true) : isOperative c = false := by
  simp [isOperative, h]

end Lexeme

/-- A text does not end with a blank if a part at its end has none. -/
theorem getLast?_append_of_solid {tail : List Char} (front : List Char) (hne : tail ≠ [])
    (h : ∀ d ∈ tail, isBlank d = false) : (front ++ tail).getLast?.all isBlank = false := by
  rw [List.getLast?_append, List.getLast?_eq_some_getLast hne, Option.some_or, Option.all_some]
  exact h _ (List.getLast_mem hne)

/-! ## What follows a lexeme -/

section Runs

variable {p : Char → Bool} {text more : List Char}

/-- A run that ends within a text is the same in a longer text. -/
theorem takeWhile_append_of_dropWhile (h : text.dropWhile p ≠ []) :
    (text ++ more).takeWhile p = text.takeWhile p := by
  have hall := List.takeWhile_append_dropWhile (p := p) (l := text)
  have hlength := congrArg List.length hall
  rw [List.length_append] at hlength
  have := List.length_pos_iff.mpr h
  rw [List.takeWhile_append, if_neg (by omega)]

theorem dropWhile_append_of_ne_nil (h : text.dropWhile p ≠ []) :
    (text ++ more).dropWhile p = text.dropWhile p ++ more := by
  rw [List.dropWhile_append, if_neg (by simpa using h)]

/-- A run up to the end of a text ends there if what follows does not go on with it. -/
theorem takeWhile_append_of_head? (h : more.head?.all (!p ·) = true) :
    (text ++ more).takeWhile p = text.takeWhile p := by
  have hmore : more.takeWhile p = [] := by
    cases more with
    | nil => rfl
    | cons c rest => simp_all
  rw [List.takeWhile_append, hmore, List.append_nil]
  split
  · next hlength => exact ((List.takeWhile_prefix p).eq_of_length hlength).symm
  · rfl

theorem dropWhile_append_of_head? (h : more.head?.all (!p ·) = true) :
    (text ++ more).dropWhile p = text.dropWhile p ++ more := by
  have hmore : more.dropWhile p = more := by
    cases more with
    | nil => rfl
    | cons c rest => simp_all
  rw [List.dropWhile_append, hmore]
  split
  · next hempty => rw [List.isEmpty_iff.mp hempty, List.nil_append]
  · rfl

end Runs

namespace Quotation

variable {closers text more content behind : List Char} {sharps : Nat} {closer c : Char}

theorem isPrefixOf_append {front : List Char} (more : List Char) (h : front.length ≤ text.length) :
    front.isPrefixOf (text ++ more) = front.isPrefixOf text := by
  rw [Bool.eq_iff_iff, List.isPrefixOf_iff_prefix, List.isPrefixOf_iff_prefix]
  constructor
  · intro hprefix
    exact List.prefix_of_prefix_length_le hprefix (List.prefix_append text more) h
  · intro hprefix
    exact hprefix.trans (List.prefix_append text more)

/-- What follows a quotation does not end it earlier. -/
theorem close?_append (more : List Char)
    (h : close? closers sharps text = some (content, closer, behind)) :
    close? closers sharps (text ++ more) = some (content, closer, behind ++ more) := by
  induction text generalizing content with
  | nil => exact nomatch h
  | cons c rest ih =>
    -- there are as many characters behind `c` as it takes to tell whether `c` ends the quotation
    have henough : sharps ≤ rest.length := by
      have hlength := congrArg List.length (append_of_close? h)
      simp only [List.length_append, List.length_cons, List.length_replicate] at hlength
      omega
    have hprefix : (List.replicate sharps '#').isPrefixOf (rest ++ more) =
        (List.replicate sharps '#').isPrefixOf rest :=
      isPrefixOf_append more (by simpa using henough)
    rw [List.cons_append, close?, hprefix]
    rw [close?] at h
    split
    · next hcloses =>
      rw [if_pos hcloses] at h
      obtain ⟨rfl, rfl, rfl⟩ : [] = content ∧ c = closer ∧ rest.drop sharps = behind := by
        simpa using h
      rw [List.drop_append_of_le_length henough]
    · next hopen =>
      rw [if_neg hopen] at h
      obtain ⟨⟨content', closer', behind'⟩, hrest, h⟩ := Option.map_eq_some_iff.mp h
      obtain ⟨rfl, rfl, rfl⟩ : c :: content' = content ∧ closer' = closer ∧ behind' = behind := by
        simpa using h
      rw [ih hrest, Option.map_some]

/-- Delimiters are not blank. -/
theorem not_isBlank_of_closers? {opener : Char} (h : closers? opener = some closers) :
    isBlank opener = false ∧ ∀ d ∈ closers, isBlank d = false := by
  have hall : (!isBlank opener && closers.all (!isBlank ·)) = true := by
    unfold closers? at h
    split at h <;> simp only [Option.some.injEq, reduceCtorEq] at h <;> subst h <;> decide +kernel
  simpa using hall

/-- No quotation begins with an `r` in front of a blank. -/
theorem opensRaw_of_isBlank {text : List Char} (h : text.head?.all isBlank = true) :
    opensRaw text = false := by
  cases text with
  | nil => rfl
  | cons c rest =>
    have hblank : isBlank c = true := by simpa using h
    have hsharp : (c == '#') = false := by
      apply Bool.eq_false_iff.mpr
      intro hc
      rw [eq_of_beq hc] at hblank
      exact absurd hblank (by decide +kernel)
    cases hclosers : closers? c with
    | none => simp [opensRaw, hsharp, hclosers]
    | some closers =>
      have := (not_isBlank_of_closers? hclosers).1
      simp_all

theorem opensRaw_append (h : text ≠ [] ∨ more.head?.all isBlank = true) :
    opensRaw (text ++ more) = opensRaw text := by
  cases text with
  | nil => exact opensRaw_of_isBlank (h.resolve_left (by simp))
  | cons c rest => rfl

theorem readRaw_append (more : List Char) {l : Lexeme} (h : readRaw text = .ok (l, behind)) :
    readRaw (text ++ more) = .ok (l, behind ++ more) := by
  simp only [readRaw] at h ⊢
  split at h
  · cases h
  · next opener body hbody =>
    have hne : text.dropWhile (· == '#') ≠ [] := by simp [hbody]
    rw [takeWhile_append_of_dropWhile hne, dropWhile_append_of_ne_nil hne, hbody, List.cons_append]
    split at h
    · cases h
    · next closers hclosers =>
      simp only [hclosers]
      split at h
      · cases h
      · next content closer behind' hclose =>
        obtain ⟨rfl, rfl⟩ := Prod.mk.inj (Except.ok.inj h)
        rw [close?_append more hclose]

theorem readPlain_append (more : List Char) {quote : Char} {l : Lexeme}
    (h : readPlain quote text = .ok (l, behind)) :
    readPlain quote (text ++ more) = .ok (l, behind ++ more) := by
  unfold readPlain at h ⊢
  split at h
  · cases h
  · next closer behind' hdrop =>
    have hne : text.dropWhile (· != quote) ≠ [] := by simp [hdrop]
    obtain ⟨rfl, rfl⟩ := Prod.mk.inj (Except.ok.inj h)
    rw [takeWhile_append_of_dropWhile hne, dropWhile_append_of_ne_nil hne, hdrop]
    rfl

theorem mem_of_close? (h : close? closers sharps text = some (content, closer, behind)) :
    closer ∈ closers := by
  induction text generalizing content with
  | nil => exact nomatch h
  | cons c rest ih =>
    rw [close?] at h
    split at h
    · next hcloses =>
      obtain ⟨-, rfl, -⟩ : [] = content ∧ c = closer ∧ rest.drop sharps = behind := by
        simpa using h
      simpa using (Bool.and_eq_true_iff.mp hcloses).1
    · obtain ⟨⟨content', closer', behind'⟩, hrest, h⟩ := Option.map_eq_some_iff.mp h
      obtain ⟨-, rfl, rfl⟩ : c :: content' = content ∧ closer' = closer ∧ behind' = behind := by
        simpa using h
      exact ih hrest

/-- A quotation behind an `r` ends with a delimiter or a sharp. -/
theorem not_isBlank_of_readRaw {l : Lexeme} (h : readRaw text = .ok (l, behind)) :
    l.text.getLast?.all isBlank = false := by
  simp only [readRaw] at h
  split at h
  · cases h
  · split at h
    · cases h
    · next closers hclosers =>
      split at h
      · cases h
      · next content closer behind' hclose =>
        obtain ⟨rfl, -⟩ := Prod.mk.inj (Except.ok.inj h)
        apply getLast?_append_of_solid _ (List.cons_ne_nil _ _)
        intro d hd
        rcases List.mem_cons.mp hd with rfl | hsharp
        · exact (not_isBlank_of_closers? hclosers).2 _ (mem_of_close? hclose)
        · obtain rfl : d = '#' := by simpa using List.all_eq_true.mp List.all_takeWhile d hsharp
          decide +kernel

/-- A quotation behind a quote ends with the same quote. -/
theorem not_isBlank_of_readPlain {quote : Char} {l : Lexeme} (hquote : isBlank quote = false)
    (h : readPlain quote text = .ok (l, behind)) : l.text.getLast?.all isBlank = false := by
  unfold readPlain at h
  split at h
  · cases h
  · next closer behind' hdrop =>
    obtain ⟨rfl, -⟩ := Prod.mk.inj (Except.ok.inj h)
    have hcloser : closer = quote := by
      have hhead := List.head?_dropWhile_not (· != quote) text
      rw [hdrop] at hhead
      simpa using hhead
    apply getLast?_append_of_solid _ (List.cons_ne_nil _ _)
    intro d hd
    rw [List.mem_singleton.mp hd, hcloser]
    exact hquote

end Quotation

namespace Lexeme

variable {c : Char} {rest behind more : List Char} {l : Lexeme}

theorem run_append {kind : Kind} {goesOn : Char → Bool}
    (hends : ∀ d, isBlank d = true → goesOn d = false)
    (h : (run kind goesOn c rest).2 ≠ [] ∨ more.head?.all isBlank = true) :
    run kind goesOn c (rest ++ more) =
      ((run kind goesOn c rest).1, (run kind goesOn c rest).2 ++ more) := by
  rcases h with hbehind | hmore
  · simp only [run] at hbehind ⊢
    rw [takeWhile_append_of_dropWhile hbehind, dropWhile_append_of_ne_nil hbehind]
  · have hhead : more.head?.all (!goesOn ·) = true := by
      cases more with
      | nil => rfl
      | cons d more => simp_all
    simp only [run]
    rw [takeWhile_append_of_head? hhead, dropWhile_append_of_head? hhead]

theorem readWord_append (h : (readWord c rest).2 ≠ [] ∨ more.head?.all isBlank = true) :
    readWord c (rest ++ more) = ((readWord c rest).1, (readWord c rest).2 ++ more) := by
  unfold readWord at h ⊢
  split_ifs at h ⊢
  · exact run_append (fun _ => isAlphanumeric_of_isBlank) h
  · exact run_append (fun _ => isAlphanumeric_of_isBlank) h
  · rfl
  · exact run_append (fun _ => isOperative_of_isBlank) h

/-- **What follows a lexeme leaves it as it is**, if something of the text is left behind the lexeme
already, or a blank follows. -/
theorem read_append (h : read c rest = .ok (l, behind))
    (hends : behind ≠ [] ∨ more.head?.all isBlank = true) :
    read c (rest ++ more) = .ok (l, behind ++ more) := by
  have hrest : rest ≠ [] ∨ more.head?.all isBlank = true := by
    refine hends.imp_left fun hbehind hrest => hbehind ?_
    have hlength := length_lt_of_read h
    rw [hrest] at hlength
    exact List.length_eq_zero_iff.mp (by simpa using hlength)
  unfold read at h ⊢
  rw [Quotation.opensRaw_append hrest]
  split_ifs at h ⊢
  · exact Quotation.readRaw_append more h
  · exact Quotation.readPlain_append more h
  · have hword : readWord c rest = (l, behind) := Except.ok.inj h
    rw [readWord_append (by rwa [hword]), hword]

theorem not_isBlank_of_run {kind : Kind} {goesOn : Char → Bool}
    (hends : ∀ d, isBlank d = true → goesOn d = false) (hc : isBlank c = false) :
    (run kind goesOn c rest).1.text.getLast?.all isBlank = false := by
  apply getLast?_append_of_solid [] (List.cons_ne_nil _ _)
  intro d hd
  rcases List.mem_cons.mp hd with rfl | hrun
  · exact hc
  · apply Bool.eq_false_iff.mpr
    intro hblank
    have hgoes : goesOn d = true := List.all_eq_true.mp List.all_takeWhile d hrun
    exact absurd hgoes (by simp [hends d hblank])

/-- **A lexeme does not end with a blank.** -/
theorem not_isBlank_of_read (hc : isBlank c = false) (h : read c rest = .ok (l, behind)) :
    l.text.getLast?.all isBlank = false := by
  unfold read at h
  split_ifs at h
  · exact Quotation.not_isBlank_of_readRaw h
  · exact Quotation.not_isBlank_of_readPlain hc h
  · have hword : readWord c rest = (l, behind) := Except.ok.inj h
    have hl : l = (readWord c rest).1 := (congrArg Prod.fst hword).symm
    rw [hl]
    unfold readWord
    split_ifs
    · exact not_isBlank_of_run (fun _ => isAlphanumeric_of_isBlank) hc
    · exact not_isBlank_of_run (fun _ => isAlphanumeric_of_isBlank) hc
    · simpa using hc
    · exact not_isBlank_of_run (fun _ => isOperative_of_isBlank) hc

end Lexeme

end Earley
