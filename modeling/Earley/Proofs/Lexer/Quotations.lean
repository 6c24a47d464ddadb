import Earley.Proofs.Lexer.Lexeme
import Mathlib.Data.List.TakeWhile

/-!
# Quotations

A quotation without an `r` ends at the next quote of the same sort. One with an `r` ends at the first
delimiter that has enough sharps behind it, whatever stands in front of that: delimiters with too few
sharps, further delimiters, or more sharps than it takes. What does not end in this way cannot be read.

No sharp is a delimiter. So the end can be found in one pass, without going back over the sharps behind
a delimiter that has too few of them.

## Main definitions

* `Quotation.Closes`: a quotation could end with a part of the text
* `Quotation.seek`: the end of a quotation, found in one pass

## Main results

* `Quotation.close?_eq_some_iff`, `Quotation.close?_eq_none_iff`: a quotation ends where it first could
* `Quotation.seek_eq_close?`: the end is found in one pass
* `Quotation.read_exact`: what is read at the start of a quotation
-/

namespace Earley.Quotation

variable {closers body content content' behind behind' : List Char} {sharps : Nat}
  {closer closer' c d : Char} {rest : List Char}

/-! ## The first end -/

/-- **A quotation could end** behind some content: with a delimiter and enough sharps. -/
structure Closes (closers : List Char) (sharps : Nat) (body content : List Char) (closer : Char)
    (behind : List Char) : Prop where
  mem : closer ∈ closers
  body_eq : body = content ++ closer :: (List.replicate sharps '#' ++ behind)

/-- A quotation could end at once. -/
theorem closes_nil_iff :
    Closes closers sharps (c :: rest) [] closer behind ↔
      c ∈ closers ∧ closer = c ∧ rest = List.replicate sharps '#' ++ behind := by
  constructor
  · rintro ⟨hmem, hbody⟩
    obtain ⟨rfl, hrest⟩ := List.cons.inj hbody
    exact ⟨hmem, rfl, hrest⟩
  · rintro ⟨hmem, rfl, rfl⟩
    exact ⟨hmem, rfl⟩

/-- A quotation could end later. -/
theorem closes_cons_iff :
    Closes closers sharps (c :: rest) (d :: content) closer behind ↔
      c = d ∧ Closes closers sharps rest content closer behind := by
  constructor
  · rintro ⟨hmem, hbody⟩
    obtain ⟨rfl, hrest⟩ := List.cons.inj hbody
    exact ⟨rfl, hmem, hrest⟩
  · rintro ⟨rfl, hmem, rfl⟩
    exact ⟨hmem, rfl⟩

/-- Whether a quotation could end at once. -/
theorem closes_at_once_iff :
    (closers.contains c && (List.replicate sharps '#').isPrefixOf rest) = true ↔
      ∃ closer behind, Closes closers sharps (c :: rest) [] closer behind := by
  rw [Bool.and_eq_true_iff, List.contains_iff_mem, List.isPrefixOf_iff_prefix]
  constructor
  · rintro ⟨hmem, behind, rfl⟩
    exact ⟨c, behind, closes_nil_iff.mpr ⟨hmem, rfl, rfl⟩⟩
  · rintro ⟨closer, behind, hcloses⟩
    obtain ⟨hmem, -, rfl⟩ := closes_nil_iff.mp hcloses
    exact ⟨hmem, behind, rfl⟩

theorem closes_of_close? (h : close? closers sharps body = some (content, closer, behind)) :
    Closes closers sharps body content closer behind where
  mem := mem_of_close? h
  body_eq := (append_of_close? h).symm

/-- **A quotation does not end later than it could.** -/
theorem length_le_of_close? (h : close? closers sharps body = some (content, closer, behind))
    (hcloses : Closes closers sharps body content' closer' behind') :
    content.length ≤ content'.length := by
  induction body generalizing content content' with
  | nil => exact nomatch h
  | cons c rest ih =>
    rw [close?] at h
    split at h
    · obtain ⟨rfl, -⟩ := Prod.mk.inj (Option.some.inj h)
      exact Nat.zero_le _
    · next hlater =>
      obtain ⟨⟨content₁, closer₁, behind₁⟩, hrest, h⟩ := Option.map_eq_some_iff.mp h
      obtain ⟨rfl, hend⟩ := Prod.mk.inj h
      obtain ⟨rfl, rfl⟩ := Prod.mk.inj hend
      cases content' with
      | nil => exact absurd (closes_at_once_iff.mpr ⟨_, _, hcloses⟩) hlater
      | cons d content' => exact Nat.succ_le_succ (ih hrest (closes_cons_iff.mp hcloses).2)

/-- **A quotation that could end has an end.** -/
theorem isSome_close?_of_closes (h : Closes closers sharps body content closer behind) :
    (close? closers sharps body).isSome = true := by
  induction body generalizing content with
  | nil => exact absurd h.body_eq (by simp)
  | cons c rest ih =>
    rw [close?]
    split
    · rfl
    · next hlater =>
      rw [Option.isSome_map]
      cases content with
      | nil => exact absurd (closes_at_once_iff.mpr ⟨_, _, h⟩) hlater
      | cons d content => exact ih (closes_cons_iff.mp h).2

/-- **A quotation ends where it first could.** -/
theorem close?_eq_some_iff :
    close? closers sharps body = some (content, closer, behind) ↔
      Closes closers sharps body content closer behind ∧
        ∀ content' closer' behind', Closes closers sharps body content' closer' behind' →
          content.length ≤ content'.length := by
  constructor
  · intro h
    exact ⟨closes_of_close? h, fun _ _ _ => length_le_of_close? h⟩
  · rintro ⟨hcloses, hfirst⟩
    obtain ⟨⟨content', closer', behind'⟩, h⟩ :=
      Option.isSome_iff_exists.mp (isSome_close?_of_closes hcloses)
    have hcloses' := closes_of_close? h
    -- two ends with equally long contents are the same
    have hlength : content.length = content'.length :=
      Nat.le_antisymm (hfirst _ _ _ hcloses') (length_le_of_close? h hcloses)
    obtain ⟨rfl, hend⟩ := List.append_inj (hcloses.body_eq.symm.trans hcloses'.body_eq) hlength
    obtain ⟨rfl, hsharps⟩ := List.cons.inj hend
    rw [h, List.append_cancel_left hsharps]

theorem close?_eq_none_iff :
    close? closers sharps body = none ↔
      ∀ content closer behind, ¬ Closes closers sharps body content closer behind := by
  constructor
  · intro h content closer behind hcloses
    have hsome := isSome_close?_of_closes hcloses
    rw [h] at hsome
    exact nomatch hsome
  · intro h
    apply Option.eq_none_iff_forall_not_mem.mpr
    rintro ⟨content, closer, behind⟩ hclose
    exact h _ _ _ (closes_of_close? hclose)

/-! ## One pass -/

/-- **The end of a quotation, found in one pass.** Behind a delimiter it passes over the sharps, up to
as many as it takes; if there are fewer, they are part of the content. -/
def seek (closers : List Char) (sharps : Nat) : List Char → Option (List Char × Char × List Char)
  | [] => none
  | c :: rest =>
    if closers.contains c then
      let passed := (rest.take sharps).takeWhile (· == '#')
      if passed.length = sharps then
        some ([], c, rest.drop sharps)
      else
        (seek closers sharps (rest.drop passed.length)).map fun (content, closer, behind) =>
          (c :: passed ++ content, closer, behind)
    else
      (seek closers sharps rest).map fun (content, closer, behind) => (c :: content, closer, behind)
termination_by text => text.length
decreasing_by all_goals grind

/-- Enough sharps follow if passing over them passes enough. -/
theorem isPrefixOf_sharps_iff :
    (List.replicate sharps '#').isPrefixOf rest = true ↔
      ((rest.take sharps).takeWhile (· == '#')).length = sharps := by
  rw [List.isPrefixOf_iff_prefix]
  constructor
  · rintro ⟨behind, rfl⟩
    simp
  · intro hlength
    have hsharps := takeWhile_sharps (rest.take sharps)
    rw [hlength] at hsharps
    rw [← hsharps]
    exact (List.takeWhile_prefix _).trans (List.take_prefix sharps rest)

/-- Nothing but a delimiter ends a quotation. -/
theorem close?_append_of_forall_not_mem {front : List Char} (h : ∀ d ∈ front, d ∉ closers)
    (sharps : Nat) (rest : List Char) :
    close? closers sharps (front ++ rest) =
      (close? closers sharps rest).map fun (content, closer, behind) =>
        (front ++ content, closer, behind) := by
  induction front with
  | nil => simp
  | cons c front ih =>
    obtain ⟨hc, hfront⟩ := List.forall_mem_cons.mp h
    rw [List.cons_append, close?, if_neg (by simp [hc]), ih hfront, Option.map_map]
    rfl

/-- **The end of a quotation is found in one pass**, as no sharp is a delimiter. -/
theorem seek_eq_close? (hsharp : '#' ∉ closers) (sharps : Nat) (body : List Char) :
    seek closers sharps body = close? closers sharps body := by
  fun_induction seek closers sharps body with
  | case1 => rfl
  | case2 c rest hc passed hpassed =>
    rw [close?, if_pos (by rw [hc, isPrefixOf_sharps_iff.mpr hpassed]; rfl)]
  | case3 c rest hc passed hpassed ih =>
    -- the sharps that were passed over end nothing, so none of the ends in front is left out
    have hsharps : ∀ d ∈ passed, d ∉ closers := by
      intro d hd
      obtain rfl : d = '#' := by simpa using List.all_eq_true.mp List.all_takeWhile d hd
      exact hsharp
    have hrest : passed ++ rest.drop passed.length = rest :=
      List.prefix_iff_eq_append.mp ((List.takeWhile_prefix _).trans (List.take_prefix sharps rest))
    have hlater : ¬(closers.contains c && (List.replicate sharps '#').isPrefixOf rest) = true :=
      fun h => hpassed (isPrefixOf_sharps_iff.mp (Bool.and_eq_true_iff.mp h).2)
    have hskip := close?_append_of_forall_not_mem hsharps sharps (rest.drop passed.length)
    rw [hrest] at hskip
    rw [close?, if_neg hlater, hskip, ih, Option.map_map]
    rfl
  | case4 c rest hc ih =>
    have hmem : c ∉ closers := by simpa using hc
    rw [close?, if_neg (by simp [hmem]), ih]

theorem sharp_notMem_of_closers? {opener : Char} (h : closers? opener = some closers) :
    '#' ∉ closers := by
  unfold closers? at h
  split at h <;> simp only [Option.some.injEq, reduceCtorEq] at h <;> subst h <;> decide

/-! ## Quotations without an `r` -/

variable {quote opener : Char} {l : Lexeme} {fault : Fault}

/-- **A quotation without an `r`** ends at the next quote of the same sort. -/
theorem readPlain_ok_iff :
    readPlain quote body = .ok (l, behind) ↔
      ∃ content, body = content ++ quote :: behind ∧ quote ∉ content ∧
        l = { kind := .quote, text := quote :: content ++ [quote], content := some content } := by
  constructor
  · intro h
    unfold readPlain at h
    split at h
    · cases h
    · next closer behind' hdrop =>
      obtain ⟨rfl, rfl⟩ := Prod.mk.inj (Except.ok.inj h)
      obtain rfl : closer = quote := by
        have hhead := List.head?_dropWhile_not (· != quote) body
        rw [hdrop] at hhead
        simpa using hhead
      refine ⟨body.takeWhile (· != closer), ?_, ?_, rfl⟩
      · rw [← hdrop, List.takeWhile_append_dropWhile]
      · intro hmem
        simpa using List.all_eq_true.mp List.all_takeWhile _ hmem
  · rintro ⟨content, rfl, hmem, rfl⟩
    have hgoes : ∀ d ∈ content, (d != quote) = true := by
      intro d hd
      rw [bne_iff_ne]
      exact ne_of_mem_of_not_mem hd hmem
    rw [readPlain, List.dropWhile_append_of_pos hgoes, List.takeWhile_append_of_pos hgoes]
    simp

/-- **A quotation without an `r` cannot be read** if there is no further quote of the same sort. -/
theorem readPlain_error_iff :
    readPlain quote body = .error fault ↔ fault = .unterminated ∧ quote ∉ body := by
  have hnil : body.dropWhile (· != quote) = [] ↔ quote ∉ body := by
    rw [List.dropWhile_eq_nil_iff]
    constructor
    · intro hall hmem
      simpa using hall quote hmem
    · intro hmem d hd
      rw [bne_iff_ne]
      exact ne_of_mem_of_not_mem hd hmem
  rw [← hnil, readPlain]
  split
  · next hdrop => simp [hdrop, eq_comm]
  · next hdrop => simp [hdrop]

/-! ## Quotations with an `r` -/

/-- The sharps at the start of a text are counted up to the first other character. -/
theorem readRaw_sharps (hrest : rest.head? ≠ some '#') (sharps : Nat) :
    (List.replicate sharps '#' ++ rest).takeWhile (· == '#') = List.replicate sharps '#' ∧
      (List.replicate sharps '#' ++ rest).dropWhile (· == '#') = rest := by
  have hhead : rest.head?.all (fun c => !(c == '#')) = true := by
    cases rest with
    | nil => rfl
    | cons c rest => simpa using hrest
  rw [takeWhile_append_of_head? hhead, dropWhile_append_of_head? hhead]
  simp

/-- Without an opening delimiter there is no quotation. -/
theorem readRaw_of_forall_closers? (hrest : rest.head? ≠ some '#')
    (h : ∀ opener ∈ rest.head?, closers? opener = none) (sharps : Nat) :
    readRaw (List.replicate sharps '#' ++ rest) = .error .badDelimiter := by
  obtain ⟨-, hdrop⟩ := readRaw_sharps hrest sharps
  unfold readRaw
  rw [hdrop]
  cases rest with
  | nil => rfl
  | cons opener body => simp only [h opener rfl]

/-- **A quotation with an `r`** has the end that is found for its delimiters and its sharps. -/
theorem readRaw_of_closers? (h : closers? opener = some closers) (sharps : Nat)
    (body : List Char) :
    readRaw (List.replicate sharps '#' ++ opener :: body) =
      match close? closers sharps body with
      | none => .error .unterminated
      | some (content, closer, behind) =>
        .ok ({ kind := .quote
               text := 'r' :: List.replicate sharps '#' ++ opener :: content ++
                 closer :: List.replicate sharps '#'
               content := some content }, behind) := by
  have hopener : (opener :: body).head? ≠ some '#' := by
    intro hsharp
    rw [Option.some.inj hsharp] at h
    exact nomatch h
  obtain ⟨htake, hdrop⟩ := readRaw_sharps hopener sharps
  unfold readRaw
  rw [htake, hdrop]
  cases hclose : close? closers sharps body with
  | none => simp [h, hclose]
  | some result => simp [h, hclose]

/-- An `r` begins a quotation in front of sharps or an opening delimiter. -/
theorem read_raw (h : 0 < sharps ∨ ∃ opener ∈ rest.head?, (closers? opener).isSome = true) :
    Lexeme.read 'r' (List.replicate sharps '#' ++ rest) =
      readRaw (List.replicate sharps '#' ++ rest) := by
  have hopens : opensRaw (List.replicate sharps '#' ++ rest) = true := by
    cases sharps with
    | zero =>
      obtain ⟨opener, hopener, hsome⟩ := h.resolve_left (Nat.lt_irrefl 0)
      obtain ⟨body, rfl⟩ := List.head?_eq_some_iff.mp hopener
      simp [opensRaw, hsome]
    | succ n => simp [List.replicate_succ, opensRaw]
  rw [Lexeme.read, hopens]
  rfl

theorem read_plain (h : isPlainQuote quote = true) : Lexeme.read quote body = readPlain quote body := by
  have hr : (quote == 'r') = false := by
    apply Bool.eq_false_iff.mpr
    intro hr
    rw [eq_of_beq hr] at h
    exact nomatch h
  simp [Lexeme.read, hr, h]

/-- **A quotation with an `r`** ends behind the first delimiter with enough sharps. -/
theorem readRaw_ok_iff (h : closers? opener = some closers) (sharps : Nat) (body : List Char) :
    readRaw (List.replicate sharps '#' ++ opener :: body) = .ok (l, behind) ↔
      ∃ content closer, Closes closers sharps body content closer behind ∧
        (∀ content' closer' behind', Closes closers sharps body content' closer' behind' →
          content.length ≤ content'.length) ∧
        l = { kind := .quote
              text := 'r' :: List.replicate sharps '#' ++ opener :: content ++
                closer :: List.replicate sharps '#'
              content := some content } := by
  simp only [← and_assoc, ← close?_eq_some_iff]
  rw [readRaw_of_closers? h]
  cases close? closers sharps body with
  | none => simp
  | some result =>
    obtain ⟨content, closer, behind'⟩ := result
    constructor
    · intro hok
      obtain ⟨rfl, rfl⟩ := Prod.mk.inj (Except.ok.inj hok)
      exact ⟨content, closer, rfl, rfl⟩
    · rintro ⟨content', closer', hclose, rfl⟩
      obtain ⟨rfl, hend⟩ := Prod.mk.inj (Option.some.inj hclose)
      obtain ⟨rfl, rfl⟩ := Prod.mk.inj hend
      rfl

/-- **A quotation with an `r` cannot be read** if no delimiter has enough sharps. -/
theorem readRaw_error_iff (h : closers? opener = some closers) (sharps : Nat) (body : List Char) :
    readRaw (List.replicate sharps '#' ++ opener :: body) = .error fault ↔
      fault = .unterminated ∧
        ∀ content closer behind, ¬ Closes closers sharps body content closer behind := by
  rw [← close?_eq_none_iff, readRaw_of_closers? h]
  cases close? closers sharps body with
  | none => simp [eq_comm]
  | some result => simp

/-- **The sharps of a quotation need an opening delimiter** behind them. -/
theorem readRaw_badDelimiter_iff (hrest : rest.head? ≠ some '#') (sharps : Nat) :
    readRaw (List.replicate sharps '#' ++ rest) = .error .badDelimiter ↔
      ∀ opener ∈ rest.head?, closers? opener = none := by
  constructor
  · intro hbad opener hopener
    obtain ⟨body, rfl⟩ := List.head?_eq_some_iff.mp hopener
    cases hclosers : closers? opener with
    | none => rfl
    | some closers => exact nomatch ((readRaw_error_iff hclosers sharps body).mp hbad).1
  · intro hnone
    exact readRaw_of_forall_closers? hrest hnone sharps

/-! ## What is read at the start of a quotation -/

/-- **Quotations are read exactly**: without an `r` up to the next quote of the same sort, with an `r`
up to the first delimiter with enough sharps, which one pass finds. -/
theorem read_exact :
    (∀ quote body, isPlainQuote quote = true →
      (∀ l behind, Lexeme.read quote body = .ok (l, behind) ↔
        ∃ content, body = content ++ quote :: behind ∧ quote ∉ content ∧
          l = { kind := .quote, text := quote :: content ++ [quote], content := some content }) ∧
      ∀ fault, Lexeme.read quote body = .error fault ↔ fault = .unterminated ∧ quote ∉ body) ∧
    (∀ sharps (rest : List Char), rest.head? ≠ some '#' →
      (0 < sharps ∨ ∃ opener ∈ rest.head?, (closers? opener).isSome = true) →
      (Lexeme.read 'r' (List.replicate sharps '#' ++ rest) = .error .badDelimiter ↔
        ∀ opener ∈ rest.head?, closers? opener = none)) ∧
    ∀ sharps opener body closers, closers? opener = some closers →
      (∀ l behind, Lexeme.read 'r' (List.replicate sharps '#' ++ opener :: body) = .ok (l, behind) ↔
        ∃ content closer, Closes closers sharps body content closer behind ∧
          (∀ content' closer' behind', Closes closers sharps body content' closer' behind' →
            content.length ≤ content'.length) ∧
          l = { kind := .quote
                text := 'r' :: List.replicate sharps '#' ++ opener :: content ++
                  closer :: List.replicate sharps '#'
                content := some content }) ∧
      (∀ fault, Lexeme.read 'r' (List.replicate sharps '#' ++ opener :: body) = .error fault ↔
        fault = .unterminated ∧
          ∀ content closer behind, ¬ Closes closers sharps body content closer behind) ∧
      seek closers sharps body = close? closers sharps body := by
  refine ⟨?plain, ?bare, ?raw⟩
  case plain =>
    intro quote body hquote
    rw [read_plain hquote]
    exact ⟨fun _ _ => readPlain_ok_iff, fun _ => readPlain_error_iff⟩
  case bare =>
    intro sharps rest hrest hopens
    rw [read_raw hopens]
    exact readRaw_badDelimiter_iff hrest sharps
  case raw =>
    intro sharps opener body closers hclosers
    have hopens : (closers? opener).isSome = true := by rw [hclosers, Option.isSome_some]
    rw [read_raw (.inr ⟨opener, rfl, hopens⟩)]
    exact ⟨fun _ _ => readRaw_ok_iff hclosers sharps body,
      fun _ => readRaw_error_iff hclosers sharps body,
      seek_eq_close? (sharp_notMem_of_closers? hclosers) sharps body⟩

/-- A delimiter with a sharp too few, and one with a sharp too many. -/
theorem read_exact_sharps :
    closers? '[' = some ['[', ']'] ∧
      Lexeme.read 'r' ['#', '#', '[', 'a', ']', '#', ']', '#', '#', '#'] =
        .ok ({ kind := .quote
               text := ['r', '#', '#', '[', 'a', ']', '#', ']', '#', '#']
               content := some ['a', ']', '#'] }, ['#']) ∧
      ∃ content closer,
        Closes ['[', ']'] 2 ['a', ']', '#', ']', '#', '#', '#'] content closer ['#'] ∧
          (∀ content' closer' behind',
            Closes ['[', ']'] 2 ['a', ']', '#', ']', '#', '#', '#'] content' closer' behind' →
              content.length ≤ content'.length) ∧
          ({ kind := .quote
             text := ['r', '#', '#', '[', 'a', ']', '#', ']', '#', '#']
             content := some ['a', ']', '#'] } : Lexeme) =
            { kind := .quote
              text := 'r' :: List.replicate 2 '#' ++ '[' :: content ++ closer :: List.replicate 2 '#'
              content := some content } := by
  have hread : Lexeme.read 'r' ['#', '#', '[', 'a', ']', '#', ']', '#', '#', '#'] =
      .ok ({ kind := .quote
             text := ['r', '#', '#', '[', 'a', ']', '#', ']', '#', '#']
             content := some ['a', ']', '#'] }, ['#']) := by decide
  exact ⟨rfl, hread, ((read_exact.2.2 2 '[' ['a', ']', '#', ']', '#', '#', '#'] _ rfl).1 _ _).mp hread⟩

end Earley.Quotation
