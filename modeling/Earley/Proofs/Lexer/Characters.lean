import Earley.Lexer.Characters

/-!
# Reading characters

A text is read character by character, so reading never fails, it ends behind the text, and two
texts are read one after the other.

## Main definitions

* `Characters.tokensFrom`: the tokens of a text from a position on

## Main results

* `Characters.read_eq`: what comes of reading a chunk
* `Characters.tokensFrom_append`: the tokens of two texts
* `Characters.exists_of_tokensFrom_eq`: the text around a token
* `Characters.flatMap_literal_tokensFrom`: nothing is left out
* `Characters.markBehind_tokensFrom`: the position behind the tokens is the one behind the text
-/

namespace Earley

namespace Characters

/-- **The tokens of a text** from a position on, each with the position behind it. -/
def tokensFrom (p : Position) : List Char → List (Token × Position)
  | [] => []
  | c :: rest => (tokenAt p c, p.step ruler c) :: tokensFrom (p.step ruler c) rest

theorem drain_eq (text : List Char) (p : Position) :
    characters.drain { rest := text, position := p } =
      { tokens := tokensFrom p text, stand := p.behind ruler text } := by
  induction text generalizing p with
  | nil =>
    have hnext : characters.next { rest := [], position := p } =
        .nothing { rest := [], position := p } := rfl
    exact TextLexer.drain_of_nothing hnext
  | cons c rest ih =>
    have hnext : characters.next { rest := c :: rest, position := p } =
        .token (tokenAt p c) { rest, position := p.step ruler c } := rfl
    rw [TextLexer.drain_of_token hnext, ih]
    rfl

/-- **What comes of reading a chunk.** -/
theorem read_eq (p : Position) (chunk : String) :
    characters.toLexer.read p chunk =
      { tokens := tokensFrom p chunk.toList, stand := p.behind ruler chunk.toList } :=
  drain_eq chunk.toList p

/-- **The tokens of two texts** are those of the first and, from behind it on, those of the
second. -/
theorem tokensFrom_append (p : Position) (front back : List Char) :
    tokensFrom p (front ++ back) =
      tokensFrom p front ++ tokensFrom (p.behind ruler front) back := by
  induction front generalizing p with
  | nil => rfl
  | cons c rest ih => simp [tokensFrom, ih]

/-- The first tokens of a text are those of its beginning. -/
theorem take_tokensFrom (n : Nat) (p : Position) (text : List Char) :
    (tokensFrom p text).take n = tokensFrom p (text.take n) := by
  induction text generalizing n p with
  | nil => simp [tokensFrom]
  | cons c rest ih =>
    cases n with
    | zero => rfl
    | succ n => simp [tokensFrom, ih]

/-- **A token of a text** is that of a character, and comes behind those of the characters before. -/
theorem exists_of_tokensFrom_eq {token : Token × Position} {front rest : List (Token × Position)}
    {p : Position} {text : List Char} (h : tokensFrom p text = front ++ token :: rest) :
    ∃ before c after, text = before ++ c :: after ∧ front = tokensFrom p before ∧
      token.1 = tokenAt (p.behind ruler before) c := by
  induction front generalizing p text with
  | nil =>
    cases text with
    | nil => exact nomatch h
    | cons c after =>
      obtain ⟨rfl, -⟩ := List.cons.inj h
      exact ⟨[], c, after, rfl, rfl, rfl⟩
  | cons first front ih =>
    cases text with
    | nil => exact nomatch h
    | cons b text =>
      obtain ⟨rfl, htail⟩ := List.cons.inj h
      obtain ⟨before, c, after, rfl, rfl, htoken⟩ := ih htail
      exact ⟨b :: before, c, after, rfl, rfl, htoken⟩

/-- **The tokens of a text are its characters**, one by one. -/
theorem flatMap_literal_tokensFrom (p : Position) (text : List Char) :
    (tokensFrom p text).flatMap (fun token => token.1.literal.toList) = text := by
  induction text generalizing p with
  | nil => rfl
  | cons c rest ih =>
    have hfirst : (tokenAt p c).literal.toList = [c] := String.toList_singleton c
    rw [tokensFrom, List.flatMap_cons, ih, hfirst]
    rfl

theorem length_tokensFrom (p : Position) (text : List Char) :
    (tokensFrom p text).length = text.length := by
  induction text generalizing p with
  | nil => rfl
  | cons c rest ih => simp [tokensFrom, ih]

/-- **The position behind the tokens of a text** is the one behind the text. -/
theorem markBehind_tokensFrom (p : Position) (text : List Char) :
    markBehind p (tokensFrom p text) = p.behind ruler text := by
  induction text generalizing p with
  | nil => rfl
  | cons c rest ih =>
    rw [tokensFrom, markBehind_cons, ih]
    rfl

end Characters

end Earley
