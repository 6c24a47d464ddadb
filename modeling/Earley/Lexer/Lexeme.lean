import Earley.Text.Alphabetic
import Earley.Text.Blank
import Earley.Text.Bracket
import Earley.Text.Numeric

/-!
# Lexemes

The words of a text. A word of letters and digits is an identifier or a number by its first
character, every bracket is a lexeme of its own, and a run of other characters is an operator. A
quotation takes any content: `"…"` and `'…'` run to the next quote of the same sort, and an `r`,
some sharps and an opening delimiter run to a closing delimiter with as many sharps behind it, as in
`r"…"`, `r[…]` and `r##(…)##`. The opening delimiter of a bracketed quotation closes it too.

An `r` in front of a sharp or an opening delimiter always begins a quotation.

## Main definitions

* `Lexeme.isAlphanumeric`, `Lexeme.isOperative`: the characters that words are made of
* `Lexeme`: a word of a text, its kind and, for a quotation, its content
* `Lexeme.Kind`: the kinds of words
* `Quotation.Fault`: why a quotation cannot be read
* `Quotation.readPlain`, `Quotation.readRaw`: the quotation at the start of a text
* `Lexeme.read`: the lexeme at the start of a text

## Main results

* `Lexeme.text_append_of_read`: a lexeme and what is left make up the text
* `Lexeme.length_lt_of_read`: so what is left is shorter
-/

namespace Earley

/-! ## Characters of words -/

/-- Whether a character may go on with an identifier or a number. -/
def Lexeme.isAlphanumeric (c : Char) : Bool :=
  Text.isAlphabetic c || Text.isNumeric c

/-- Whether a character may stand in an operator. -/
def Lexeme.isOperative (c : Char) : Bool :=
  !Lexeme.isAlphanumeric c && !Text.isBlank c && !Text.isBracket c

/-! ## Lexemes -/

/-- **The kinds of words.** -/
inductive Lexeme.Kind where
  | ident
  | number
  | op
  | bracket
  | quote
deriving DecidableEq, Repr

/-- The name of a kind, as grammars refer to it. -/
def Lexeme.Kind.name : Lexeme.Kind → String
  | ident => "ident"
  | number => "number"
  | op => "op"
  | bracket => "bracket"
  | quote => "quote"

/-- **A word of a text.** -/
structure Lexeme where
  kind : Lexeme.Kind
  /-- The word as it is written. -/
  text : List Char
  /-- What stands between the delimiters of a quotation. -/
  content : Option (List Char) := none
deriving DecidableEq, Repr

/-! ## Quotations -/

namespace Quotation

/-- **Why a quotation cannot be read.** -/
inductive Fault where
  /-- Nothing ends it. -/
  | unterminated
  /-- The sharps are not followed by a delimiter. -/
  | badDelimiter
deriving DecidableEq, Repr

/-- The wording of a fault. -/
def Fault.message : Fault → String
  | unterminated => "unterminated quote"
  | badDelimiter => "invalid quotation base delimiter"

/-- Whether a character delimits quotations without an `r`. -/
def isPlainQuote (c : Char) : Bool :=
  c == '\x22' || c == '\x27'

/-- The delimiters that end what an opening delimiter begins, if it is one. -/
def closers? (opener : Char) : Option (List Char) :=
  match opener with
  | '[' => some ['[', ']']
  | '(' => some ['(', ')']
  | '\x7b' => some ['\x7b', '\x7d']
  | '<' => some ['<', '>']
  | '\x22' => some ['\x22']
  | '\x27' => some ['\x27']
  | '|' => some ['|']
  | '\x60' => some ['\x60']
  | _ => none

/-- Whether an `r` in front of a text begins a quotation. -/
def opensRaw : List Char → Bool
  | [] => false
  | c :: _ => c == '#' || (closers? c).isSome

/-- The end of a quotation: the content, the delimiter that ends it, and what follows the sharps
behind that. -/
def close? (closers : List Char) (sharps : Nat) :
    List Char → Option (List Char × Char × List Char)
  | [] => none
  | c :: rest =>
    if closers.contains c && (List.replicate sharps '#').isPrefixOf rest then
      some ([], c, rest.drop sharps)
    else
      (close? closers sharps rest).map fun (content, closer, behind) =>
        (c :: content, closer, behind)

/-- **The quotation behind a quote**, and what follows it. -/
def readPlain (quote : Char) (body : List Char) : Except Fault (Lexeme × List Char) :=
  match body.dropWhile (· != quote) with
  | [] => .error .unterminated
  | closer :: behind =>
    let content := body.takeWhile (· != quote)
    .ok ({ kind := .quote, text := quote :: content ++ [closer], content := some content }, behind)

/-- **The quotation behind an `r`**, and what follows it. -/
def readRaw (text : List Char) : Except Fault (Lexeme × List Char) :=
  let sharps := text.takeWhile (· == '#')
  match text.dropWhile (· == '#') with
  | [] => .error .badDelimiter
  | opener :: body =>
    match closers? opener with
    | none => .error .badDelimiter
    | some closers =>
      match close? closers sharps.length body with
      | none => .error .unterminated
      | some (content, closer, behind) =>
        .ok ({ kind := .quote
               text := 'r' :: sharps ++ opener :: content ++ closer :: sharps
               content := some content }, behind)

/-- Content, delimiter, sharps and what follows make up the text behind an opening delimiter. -/
theorem append_of_close? {closers text content behind : List Char} {sharps : Nat} {closer : Char}
    (h : close? closers sharps text = some (content, closer, behind)) :
    content ++ closer :: (List.replicate sharps '#' ++ behind) = text := by
  induction text generalizing content with
  | nil => simp [close?] at h
  | cons c rest ih =>
    rw [close?] at h
    split at h
    · next hc =>
      obtain ⟨-, hsharps⟩ := Bool.and_eq_true _ _ ▸ hc
      obtain ⟨tail, rfl⟩ := List.isPrefixOf_iff_prefix.1 hsharps
      simp only [Option.some.injEq, Prod.mk.injEq] at h
      obtain ⟨rfl, rfl, rfl⟩ := h
      simp
    · obtain ⟨⟨content', closer', behind'⟩, hrest, h⟩ := Option.map_eq_some_iff.1 h
      simp only [Prod.mk.injEq] at h
      obtain ⟨rfl, rfl, rfl⟩ := h
      simp [ih hrest]

theorem text_append_of_readPlain {quote : Char} {body behind : List Char} {l : Lexeme}
    (h : readPlain quote body = .ok (l, behind)) : l.text ++ behind = quote :: body := by
  unfold readPlain at h
  split at h
  · simp at h
  · next closer rest hdrop =>
    simp only [Except.ok.injEq, Prod.mk.injEq] at h
    obtain ⟨rfl, rfl⟩ := h
    have := List.takeWhile_append_dropWhile (p := (· != quote)) (l := body)
    simp_all

/-- The sharps at the start of a text are told by their number. -/
theorem takeWhile_sharps (text : List Char) :
    text.takeWhile (· == '#') = List.replicate (text.takeWhile (· == '#')).length '#' :=
  List.eq_replicate_of_mem fun c hc => by
    simpa using List.all_eq_true.1 List.all_takeWhile c hc

theorem text_append_of_readRaw {text behind : List Char} {l : Lexeme}
    (h : readRaw text = .ok (l, behind)) : l.text ++ behind = 'r' :: text := by
  simp only [readRaw] at h
  split at h
  · simp at h
  · next opener body hdrop =>
    split at h
    · simp at h
    · split at h
      · simp at h
      · next hclose =>
        simp only [Except.ok.injEq, Prod.mk.injEq] at h
        obtain ⟨rfl, rfl⟩ := h
        have hall := List.takeWhile_append_dropWhile (p := (· == '#')) (l := text)
        rw [hdrop, ← append_of_close? hclose, ← takeWhile_sharps] at hall
        simpa using hall

end Quotation

/-! ## The lexeme at the start of a text -/

namespace Lexeme

/-- The longest run of characters that may follow `c`. -/
def run (kind : Kind) (goesOn : Char → Bool) (c : Char) (rest : List Char) : Lexeme × List Char :=
  ({ kind, text := c :: rest.takeWhile goesOn }, rest.dropWhile goesOn)

/-- The word that begins with a character that is neither blank nor a quote. -/
def readWord (c : Char) (rest : List Char) : Lexeme × List Char :=
  if Text.isNumeric c then run .number isAlphanumeric c rest
  else if Text.isAlphabetic c then run .ident isAlphanumeric c rest
  else if Text.isBracket c then ({ kind := .bracket, text := [c] }, rest)
  else run .op isOperative c rest

/-- **The lexeme that begins with a character**, and what follows it. -/
def read (c : Char) (rest : List Char) : Except Quotation.Fault (Lexeme × List Char) :=
  if c == 'r' && Quotation.opensRaw rest then Quotation.readRaw rest
  else if Quotation.isPlainQuote c then Quotation.readPlain c rest
  else .ok (readWord c rest)

theorem text_append_run (kind : Kind) (goesOn : Char → Bool) (c : Char) (rest : List Char) :
    (run kind goesOn c rest).1.text ++ (run kind goesOn c rest).2 = c :: rest := by
  simp [run]

theorem text_append_readWord (c : Char) (rest : List Char) :
    (readWord c rest).1.text ++ (readWord c rest).2 = c :: rest := by
  unfold readWord
  split
  · exact text_append_run ..
  · split
    · exact text_append_run ..
    · split
      · rfl
      · exact text_append_run ..

/-- **A lexeme and what is left make up the text.** -/
theorem text_append_of_read {c : Char} {rest behind : List Char} {l : Lexeme}
    (h : read c rest = .ok (l, behind)) : l.text ++ behind = c :: rest := by
  unfold read at h
  split at h
  · next hr =>
    obtain ⟨hc, -⟩ := Bool.and_eq_true _ _ ▸ hr
    rw [Quotation.text_append_of_readRaw h, eq_of_beq hc]
  · split at h
    · exact Quotation.text_append_of_readPlain h
    · have := text_append_readWord c rest
      simp_all

/-- A lexeme takes at least its first character. -/
theorem text_ne_nil_of_read {c : Char} {rest behind : List Char} {l : Lexeme}
    (h : read c rest = .ok (l, behind)) : l.text ≠ [] := by
  unfold read Quotation.readRaw Quotation.readPlain readWord run at h
  grind

/-- What a lexeme leaves is shorter. -/
theorem length_lt_of_read {c : Char} {rest behind : List Char} {l : Lexeme}
    (h : read c rest = .ok (l, behind)) : behind.length < (c :: rest).length := by
  have := List.length_pos_iff.2 (text_ne_nil_of_read h)
  rw [← text_append_of_read h, List.length_append]
  omega

end Lexeme

end Earley
