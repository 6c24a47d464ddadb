import Earley.Proofs.Lexer.Quotations
import Earley.Proofs.Lexer.Words

/-!
# Quoting a text

A text is quoted by putting an `r`, sharps and an opening delimiter in front of it, and the
delimiter that matches and as many sharps behind it. The quotation is read as one token with the
text for its value, unless the text holds something that ends a quotation: the delimiter that
matches with its sharps, or the opening delimiter with its sharps, which ends a quotation too. Then
the quotation ends at the first of them, and what stands behind it is read on.

So with a delimiter that matches itself, sharps enough to tell it from the text will do. With a
bracket they also have to tell the opening brackets of the text from it.

## Main definitions

* `Quotation.matching`: the delimiter that matches an opening delimiter
* `Quotation.ending`: a delimiter and its sharps
* `Quotation.quoted`: the quotation of a text
* `Quotation.token`: the token of a quotation

## Main results

* `Quotation.mem_closers_iff`: a delimiter ends a quotation if it opened it or matches what did
* `Quotation.close?_append_ending`: where the quotation of a text ends
* `Quotation.read_quoted`: what is read of the quotation of a text
-/

namespace Earley.Quotation

open Words (ruler reading read_eq)

variable {closers content front back behind : List Char} {opener closer d : Char} {sharps : Nat}

/-! ## The quotation of a text -/

/-- **The delimiter that matches** an opening delimiter: its counterpart, or the same one again. -/
def matching (opener : Char) : Char :=
  match opener with
  | '[' => ']'
  | '(' => ')'
  | '\x7b' => '\x7d'
  | '<' => '>'
  | opener => opener

/-- A delimiter and its sharps. -/
def ending (delimiter : Char) (sharps : Nat) : List Char :=
  delimiter :: List.replicate sharps '#'

/-- **The quotation of a text**, with the delimiters around it. -/
def quoted (opener closer : Char) (sharps : Nat) (content : String) : String :=
  String.ofList
    ('r' :: List.replicate sharps '#' ++ opener :: content.toList ++ ending closer sharps)

/-- The token of a quotation at a position. -/
def token (p : Position) (opener closer : Char) (sharps : Nat) (content : String) : Token where
  value := content
  text := some (quoted opener closer sharps content)
  kind := some Lexeme.Kind.quote.name
  offset := p.offset
  line := p.line
  col := p.col + 1

/-- **A delimiter ends a quotation** if it opened it or matches what did. -/
theorem mem_closers_iff (h : closers? opener = some closers) :
    d ∈ closers ↔ d = opener ∨ d = matching opener := by
  unfold closers? at h
  split at h <;> simp only [Option.some.injEq, reduceCtorEq] at h <;> subst h <;> simp [matching]

/-! ## Where it ends -/

theorem closes_iff_ending :
    Closes closers sharps content front d back ↔
      d ∈ closers ∧ content = front ++ ending d sharps ++ back := by
  rw [List.append_assoc]
  exact ⟨fun h => ⟨h.mem, h.body_eq⟩, fun h => ⟨h.1, h.2⟩⟩

/-- An ending that begins in a text ends in it too, if another ending follows: no sharp is a
delimiter. -/
theorem exists_of_append_ending (hcloser : closer ≠ '#') (hlt : front.length < content.length)
    (h : content ++ ending closer sharps = front ++ ending d sharps ++ back) :
    ∃ back', content = front ++ ending d sharps ++ back' := by
  simp only [List.append_assoc] at h ⊢
  rcases List.append_eq_append_iff.mp h with ⟨more, hfront, -⟩ | ⟨mid, hcontent, hmid⟩
  · rw [hfront, List.length_append] at hlt
    omega
  rcases List.append_eq_append_iff.mp hmid with ⟨back', hback, -⟩ | ⟨more, hending, hcloses⟩
  · exact ⟨back', by rw [hcontent, hback]⟩
  cases mid with
  | nil =>
    rw [hcontent, List.append_nil] at hlt
    exact absurd hlt (Nat.lt_irrefl _)
  | cons e mid =>
    cases more with
    | nil => exact ⟨[], by rw [hcontent, hending]; simp⟩
    | cons f more =>
      -- the delimiter behind the text would be one of the sharps
      have hsharps : List.replicate sharps '#' = mid ++ f :: more := (List.cons.inj hending).2
      have hf : f ∈ List.replicate sharps '#' := by simp [hsharps]
      have hclose : closer = f := (List.cons.inj hcloses).1
      exact absurd (hclose.trans (List.eq_of_mem_replicate hf)) hcloser

/-- **Nothing in a text ends a quotation** if no ending stands in it. -/
theorem close?_eq_none_iff_forall :
    close? closers sharps content = none ↔ ∀ d ∈ closers, ¬ ending d sharps <:+: content := by
  simp only [close?_eq_none_iff, closes_iff_ending]
  constructor
  · rintro hnone d hd ⟨front, back, hcontent⟩
    exact hnone front d back ⟨hd, hcontent.symm⟩
  · rintro hnone front d back ⟨hd, hcontent⟩
    exact hnone d hd ⟨front, back, hcontent.symm⟩

/-- **The quotation of a text ends** at the first ending in the text, or else behind it. -/
theorem close?_append_ending (hmem : closer ∈ closers) (hsharp : '#' ∉ closers) :
    close? closers sharps (content ++ ending closer sharps) =
      match close? closers sharps content with
      | some (front, d, back) => some (front, d, back ++ ending closer sharps)
      | none => some (content, closer, []) := by
  cases hclose : close? closers sharps content with
  | some result => exact close?_append _ hclose
  | none =>
    have hnone := close?_eq_none_iff.mp hclose
    refine close?_eq_some_iff.mpr ⟨closes_iff_ending.mpr ⟨hmem, (List.append_nil _).symm⟩, ?_⟩
    intro front d back hcloses
    obtain ⟨hd, hbody⟩ := closes_iff_ending.mp hcloses
    by_contra hlt
    -- an earlier end would be one in the text
    obtain ⟨back', hcontent⟩ := exists_of_append_ending (ne_of_mem_of_not_mem hmem hsharp)
      (Nat.lt_of_not_le hlt) hbody
    exact hnone front d back' (closes_iff_ending.mpr ⟨hd, hcontent⟩)

/-! ## What is read of it -/

/-- A quotation is read up to where it ends. -/
theorem reading_quoted (h : closers? opener = some closers) (p : Position) {content front : String}
    (hclose : close? closers sharps (content.toList ++ ending closer sharps) =
      some (front.toList, d, back)) :
    reading p (quoted opener closer sharps content).toList =
      { reading (p.behind ruler (quoted opener d sharps front).toList) back with
        tokens :=
          (token p opener d sharps front,
            p.behind ruler (quoted opener d sharps front).toList) ::
          (reading (p.behind ruler (quoted opener d sharps front).toList) back).tokens } := by
  have hopens : (closers? opener).isSome = true := by rw [h, Option.isSome_some]
  have hread : Lexeme.read 'r'
        (List.replicate sharps '#' ++ opener :: (content.toList ++ ending closer sharps)) =
      .ok ({ kind := .quote
             text := (quoted opener d sharps front).toList
             content := some front.toList }, back) := by
    rw [read_raw (.inr ⟨opener, rfl, hopens⟩), readRaw_of_closers? h, hclose, quoted,
      String.toList_ofList]
    rfl
  have htext : (quoted opener closer sharps content).toList =
      'r' :: (List.replicate sharps '#' ++ opener :: (content.toList ++ ending closer sharps)) := by
    simp [quoted]
  rw [htext, Words.reading_word (by decide +kernel) hread]
  simp [Words.lexemeToken, Words.tokenAt, token, ruler]

/-- The first token of a quotation whose text holds an ending. -/
theorem head?_read_quoted (h : closers? opener = some closers) (start : Position)
    {content front : String}
    (hclose : close? closers sharps content.toList = some (front.toList, d, back)) :
    (words.toLexer.read start (quoted opener (matching opener) sharps content)).tokens.head? =
      some (token start opener d sharps front,
        start.behind ruler (quoted opener d sharps front).toList) := by
  rw [read_eq, reading_quoted h start (close?_append _ hclose)]
  rfl

/-- The one token of a quotation whose text holds no ending. -/
theorem read_quoted_of_close? (h : closers? opener = some closers) (start : Position)
    {content : String} (hclose : close? closers sharps content.toList = none) :
    words.toLexer.read start (quoted opener (matching opener) sharps content) =
      { tokens := [(token start opener (matching opener) sharps content,
          start.behind ruler (quoted opener (matching opener) sharps content).toList)]
        stand := start.behind ruler (quoted opener (matching opener) sharps content).toList } := by
  have hmem : matching opener ∈ closers := (mem_closers_iff h).mpr (.inr rfl)
  have hend : close? closers sharps (content.toList ++ ending (matching opener) sharps) =
      some (content.toList, matching opener, []) := by
    rw [close?_append_ending hmem (sharp_notMem_of_closers? h), hclose]
  rw [read_eq, reading_quoted h start hend, Words.reading_nil]

/-- **The quotation of a text is one token** with the text for its value if and only if neither of
its delimiters stands in the text with so many sharps behind. Otherwise the first token is the
quotation of what stands in front of the first of them. -/
theorem read_quoted (h : closers? opener = some closers) (start : Position) (sharps : Nat)
    (content : String) :
    (words.toLexer.read start (quoted opener (matching opener) sharps content) =
        { tokens := [(token start opener (matching opener) sharps content,
            start.behind ruler (quoted opener (matching opener) sharps content).toList)]
          stand := start.behind ruler (quoted opener (matching opener) sharps content).toList } ↔
      ¬ ending opener sharps <:+: content.toList ∧
        ¬ ending (matching opener) sharps <:+: content.toList) ∧
    ∀ front d back, (d = opener ∨ d = matching opener) →
      content.toList = front.toList ++ ending d sharps ++ back →
      (∀ front' d' back', (d' = opener ∨ d' = matching opener) →
        content.toList = front' ++ ending d' sharps ++ back' → front.length ≤ front'.length) →
      (words.toLexer.read start (quoted opener (matching opener) sharps content)).tokens.head? =
        some (token start opener d sharps front,
          start.behind ruler (quoted opener d sharps front).toList) := by
  have hnone : close? closers sharps content.toList = none ↔
      ¬ ending opener sharps <:+: content.toList ∧
        ¬ ending (matching opener) sharps <:+: content.toList := by
    simp only [close?_eq_none_iff_forall, mem_closers_iff h, forall_eq_or_imp, forall_eq]
  refine ⟨?whole, ?cut⟩
  case whole =>
    rw [← hnone]
    refine ⟨fun hwhole => ?_, read_quoted_of_close? h start⟩
    cases hclose : close? closers sharps content.toList with
    | none => rfl
    | some result =>
      obtain ⟨front, d, back⟩ := result
      rw [← String.toList_ofList (l := front)] at hclose
      -- the value of the first token would be shorter than the text
      have hhead := head?_read_quoted h start hclose
      rw [hwhole] at hhead
      have hvalue : content = String.ofList front :=
        congrArg (fun token => token.1.value) (Option.some.inj hhead)
      have hbody := congrArg List.length (closes_of_close? hclose).body_eq
      rw [hvalue, String.toList_ofList, List.length_append, List.length_cons] at hbody
      omega
  case cut =>
    intro front d back hd hcontent hfirst
    have hcloses := closes_iff_ending.mpr ⟨(mem_closers_iff h).mpr hd, hcontent⟩
    refine head?_read_quoted h start (close?_eq_some_iff.mpr ⟨hcloses, ?_⟩)
    intro front' d' back' hcloses'
    obtain ⟨hd', hcontent'⟩ := closes_iff_ending.mp hcloses'
    rw [String.length_toList]
    exact hfirst front' d' back' ((mem_closers_iff h).mp hd') hcontent'

/-- A closing bracket with a sharp too few, and an opening bracket with sharps enough. -/
theorem read_quoted_sharps :
    closers? '(' = some ['(', ')'] ∧
      (¬ ending '(' 2 <:+: "a)#b".toList ∧ ¬ ending ')' 2 <:+: "a)#b".toList ∧
        words.toLexer.read {} (quoted '(' ')' 2 "a)#b") =
          { tokens := [(token {} '(' ')' 2 "a)#b", Position.behind ruler {} "r##(a)#b)##".toList)]
            stand := Position.behind ruler {} "r##(a)#b)##".toList }) ∧
      "a(#b".toList = "a".toList ++ ending '(' 1 ++ ['b'] ∧
        (words.toLexer.read {} (quoted '(' ')' 1 "a(#b")).tokens.head? =
          some (token {} '(' '(' 1 "a", Position.behind ruler {} "r#(a(#".toList) := by
  have hopener : ¬ ending '(' 2 <:+: "a)#b".toList := by decide
  have hcloser : ¬ ending ')' 2 <:+: "a)#b".toList := by decide
  have hwhole := (read_quoted rfl {} 2 "a)#b").1.mpr ⟨hopener, hcloser⟩
  refine ⟨rfl, ⟨hopener, hcloser, hwhole⟩, rfl, ?_⟩
  refine (read_quoted rfl {} 1 "a(#b").2 "a" '(' ['b'] (.inl rfl) rfl ?_
  intro front d back hd hcontent
  cases front with
  | nil =>
    -- the text begins with neither bracket
    have hfirst : 'a' = d := (List.cons.inj hcontent).1
    rw [← hfirst] at hd
    exact absurd hd (by decide)
  | cons c front => exact Nat.succ_le_succ (Nat.zero_le _)

/-- An opening bracket in the text ends the quotation, though no closing one stands there. -/
theorem read_quoted_nested :
    closers? '(' = some ['(', ')'] ∧ matching '(' = ')' ∧ ¬ ending ')' 0 <:+: "f(x".toList ∧
      quoted '(' ')' 0 "f(x" = "r(f(x)" ∧
      (words.toLexer.read {} "r(f(x)").error = none ∧
      (words.toLexer.read {} "r(f(x)").tokens.map (fun token =>
        (token.1.kind, token.1.value, token.1.literal)) =
          [(some "quote", "f", "r(f("), (some "ident", "x", "x"), (some "bracket", ")", ")")] :=
  ⟨rfl, rfl, by decide, by decide, by decide +kernel, by decide +kernel⟩

end Earley.Quotation
