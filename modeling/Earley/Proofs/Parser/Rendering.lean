import Earley.Proofs.Grammar.Rendering
import Earley.Proofs.Lexer.Characters
import Earley.Proofs.Lexer.Words
import Earley.Proofs.Parser.Results
import Earley.Proofs.Parser.Table

/-!
# Back to the text

In a grammar whose reducers keep the text, every result of a parser has the source text of the
tokens that it was made from. These are all tokens that the parser has taken, unless its latest input
was refused: then the results are still those of the input before. With characters as tokens the
text is that of the chunks, and with words it is that without the blanks between the words.

## Main definitions

* `Parser.taking`, `Parser.Took`: a parser that has taken some chunks whole

## Main results

* `Parser.Consumed.exists_rendered`: the results have the text of the tokens
* `Parser.Took.exists_consumed`: what follows for chunks from what a lexer makes of one
* `Parser.rendered_results`: the results have the text of the input
-/

namespace Earley

variable {Chunk Mark : Type} {lexer : Lexer Chunk Mark} {g : Grammar} {input : List Token}
  {chart : Chart} {p : Parser lexer} {v : Value}

/-- **The results of a chart have the text of its input.** -/
theorem Chart.Reads.rendered_eq (hg : g.KeepsText) (h : Chart.Reads g input chart)
    (hv : v ∈ chart.results g.start) : v.rendered = Token.rendered input := by
  obtain ⟨trees, -, hparses, hvalues⟩ := Chart.results_eq h
  -- the result is the value of a tree of the input
  have hmem : some v ∈ trees.map (Tree.value? 0) := by
    rw [← hvalues]
    exact List.mem_map_of_mem hv
  obtain ⟨tree, htree, hvalue⟩ := List.mem_map.mp hmem
  have hparse := (hparses tree).mp htree
  rw [← hparse.tokens]
  exact hparse.fits.rendered_eq hg hvalue

namespace Parser

/-- **The results of a parser have the text of its tokens**, or of the first of them if its latest
input was refused. -/
theorem Consumed.exists_rendered (hg : g.KeepsText) (h : p.Consumed g input) :
    ∃ front, front <+: input ∧ (p.blocked = false → front = input) ∧
      ∀ v ∈ p.results, v.rendered = Token.rendered front := by
  refine h.induction (P := fun input p => ∃ front, front <+: input ∧
    (p.blocked = false → front = input) ∧ ∀ v ∈ p.results, v.rendered = Token.rendered front) ?_ ?_
  · intro keepHistory fuel p h
    obtain ⟨chart, hchart, rfl⟩ := Option.map_eq_some_iff.mp h
    have hreads : Chart.Reads g [] chart := .initial hchart
    exact ⟨[], List.prefix_rfl, fun _ => rfl, fun v hv => hreads.rendered_eq hg hv⟩
  · intro input p fuel chunk fed hp ih h
    have hfed := hp.feed h
    by_cases herror : fed.error = none
    · -- the results are those of the last column, behind all tokens
      obtain ⟨hgrammar, hreads⟩ := hfed.reads
      refine ⟨_, List.prefix_rfl, fun _ => rfl, fun v hv => ?_⟩
      rw [results_of_taken h herror, hgrammar] at hv
      exact hreads.rendered_eq hg hv
    · -- the results are those of before
      obtain ⟨front, hprefix, -, hrendered⟩ := ih
      have hblocked : fed.parser.blocked = true := by
        rw [blocked_feed h]
        exact Option.isSome_iff_ne_none.mpr herror
      refine ⟨front, hprefix.trans (List.prefix_append _ _), ?_, ?_⟩
      · exact fun hopen => absurd (hblocked.symm.trans hopen) (by simp)
      · rwa [results_feed h herror]

/-! ## Chunks -/

/-- Sessions in which chunks are fed and none is refused, with a log of the chunks. -/
def taking (g : Grammar) : Terms lexer (List Chunk) :=
  .feeding (fun p => ∃ keepHistory fuel, start lexer g keepHistory fuel = some p) []
    fun chunks _ chunk fed next => fed.error = none ∧ next = chunks ++ [chunk]

/-- **A parser that has taken some chunks whole**, and nothing else. -/
def Took (g : Grammar) (chunks : List Chunk) (p : Parser lexer) : Prop :=
  Session (taking g) chunks p

/-- **What a parser has taken of its chunks** is what the lexer makes of each of them: whatever
relates the chunks to their tokens. -/
theorem Took.exists_consumed {chunks : List Chunk} {T : List Chunk → List Token → Prop}
    (h : p.Took g chunks) (hnil : T [] [])
    (hconcat : ∀ (chunks : List Chunk) (input : List Token) (mark : Mark) (chunk : Chunk),
      T chunks input → (lexer.read mark chunk).error = none →
        T (chunks ++ [chunk]) (input ++ (lexer.read mark chunk).tokens.map Prod.fst)) :
    ∃ input, p.Consumed g input ∧ p.blocked = false ∧ T chunks input := by
  refine Session.feeding_induction (I := fun chunks p =>
    ∃ input, p.Consumed g input ∧ p.blocked = false ∧ T chunks input) h ?_ ?_
  · rintro p ⟨keepHistory, fuel, h⟩
    obtain ⟨-, -, -, hopen, -⟩ := fresh_of_start h
    exact ⟨[], consumed_of_start h, hopen, hnil⟩
  · rintro chunks next fuel p chunk fed - ⟨input, hconsumed, -, htaken⟩ h ⟨herror, rfl⟩
    obtain ⟨hfed, hopen⟩ := hconsumed.of_error_eq_none h herror
    obtain ⟨-, -, hread, -⟩ := taken_of_feed h herror
    exact ⟨_, hfed, hopen, hconcat chunks input _ chunk htaken hread⟩

/-- The characters taken are those of the chunks. -/
theorem Took.exists_characters {chunks : List String} {p : Parser characters.toLexer}
    (h : p.Took g chunks) :
    ∃ input, p.Consumed g input ∧ p.blocked = false ∧
      Token.rendered input = String.join chunks := by
  refine h.exists_consumed (T := fun chunks input => Token.rendered input = String.join chunks) rfl
    fun chunks input mark chunk htaken _ => ?_
  have hchunk : Token.rendered ((characters.toLexer.read mark chunk).tokens.map Prod.fst) = chunk := by
    apply String.toList_injective
    rw [Token.toList_rendered, Characters.read_eq, List.flatMap_map]
    exact Characters.flatMap_literal_tokensFrom mark chunk.toList
  rw [Token.rendered_append, htaken, hchunk, String.join_append]
  simp

/-- The words taken are those of the chunks, with blanks around them. -/
theorem Took.exists_words {chunks : List String} {p : Parser words.toLexer} (h : p.Took g chunks) :
    ∃ input, p.Consumed g input ∧ p.blocked = false ∧
      Words.Spaced (String.join chunks).toList (input.map fun t => t.literal.toList) := by
  refine h.exists_consumed (T := fun chunks input =>
    Words.Spaced (String.join chunks).toList (input.map fun t => t.literal.toList)) .nil
    fun chunks input mark chunk htaken hread => ?_
  have hchunk := Words.spaced_reading hread
  have htext : (String.join (chunks ++ [chunk])).toList =
      (String.join chunks).toList ++ chunk.toList := by
    simp [String.join_append]
  rw [htext, List.map_append, List.map_map]
  exact htaken.append hchunk

/-- **The results of a parser have the text of its input**, in a grammar that keeps the text: that of
all tokens it has taken, or of those before, if its latest input was refused. With characters as
tokens this is the text of the chunks. With words it is the text of the chunks without the blanks
between the words. -/
theorem rendered_results (hg : g.KeepsText) :
    (∀ {Chunk Mark : Type} {lexer : Lexer Chunk Mark} {input : List Token} {p : Parser lexer},
        p.Consumed g input → ∃ front, front <+: input ∧ (p.blocked = false → front = input) ∧
          ∀ v ∈ p.results, v.rendered = Token.rendered front) ∧
      (∀ {chunks : List String} {p : Parser characters.toLexer}, p.Took g chunks →
        ∀ v ∈ p.results, v.rendered = String.join chunks) ∧
        ∀ {chunks : List String} {p : Parser words.toLexer}, p.Took g chunks →
          ∃ input, p.Consumed g input ∧
            Words.Spaced (String.join chunks).toList (input.map fun t => t.literal.toList) ∧
              ∀ v ∈ p.results, v.rendered = Token.rendered input := by
  refine ⟨fun hp => hp.exists_rendered hg, fun hp => ?_, fun hp => ?_⟩
  · obtain ⟨input, hconsumed, hopen, htext⟩ := hp.exists_characters
    obtain ⟨front, -, hall, hrendered⟩ := hconsumed.exists_rendered hg
    obtain rfl := hall hopen
    exact htext ▸ hrendered
  · obtain ⟨input, hconsumed, hopen, hspaced⟩ := hp.exists_words
    obtain ⟨front, -, hall, hrendered⟩ := hconsumed.exists_rendered hg
    obtain rfl := hall hopen
    exact ⟨front, hconsumed, hspaced, hrendered⟩

/-- Words of letters, taken apart and put together by reducers of every kind. -/
def spelled : Grammar where
  start := "S"
  rules :=
    [{ name := "S", symbols := [.nonterminal "W"], reduce := Reducer.first },
     { name := "S", symbols := [.nonterminal "W", .nonterminal "R"], reduce := Reducer.prepend },
     { name := "R", symbols := [.literal " " false, .nonterminal "S"], reduce := Reducer.join },
     { name := "W", symbols := [] },
     { name := "W", symbols := [.nonterminal "W", .nonterminal "L"], reduce := Reducer.append },
     { name := "L", symbols := [.literal "a" false] }]

theorem keepsText_spelled : spelled.KeepsText := by
  intro rule hrule
  simp only [spelled, List.mem_cons, List.not_mem_nil, or_false] at hrule
  rcases hrule with rfl | rfl | rfl | rfl | rfl | rfl
  · exact .first rfl (by simp)
  · exact .prepend rfl (by simp)
  · exact .join rfl
  · exact .pack rfl
  · exact .append rfl (by simp)
  · exact .pack rfl

theorem rendered_results_spelled :
    ∃ p : Parser characters.toLexer, p.Took spelled ["a", "a a"] ∧ p.results ≠ [] ∧
      ∀ v ∈ p.results, v.rendered = "aa a" := by
  have hrun : ((start characters.toLexer spelled false 20).bind fun p => p.feed 20 "a").any
      (fun first => first.error.isNone && (first.parser.feed 20 "a a").any fun second =>
        second.error.isNone && !second.parser.results.isEmpty) = true := by decide +kernel
  obtain ⟨first, hfirst, hrun⟩ := (Option.any_eq_true _ _).mp hrun
  obtain ⟨p, hp, hfeed⟩ := Option.bind_eq_some_iff.mp hfirst
  obtain ⟨hnone, hrun⟩ := Bool.and_eq_true_iff.mp hrun
  obtain ⟨second, hsecond, hresult⟩ := (Option.any_eq_true _ _).mp hrun
  have hresult : second.error = none ∧ second.parser.results ≠ [] := by simpa using hresult
  have hone : first.parser.Took spelled ["a"] :=
    .step (.start ⟨false, 20, hp⟩) (.feed hfeed) ⟨Option.isNone_iff_eq_none.mp hnone, rfl⟩
  have htook : second.parser.Took spelled ["a", "a a"] :=
    .step hone (.feed hsecond) ⟨hresult.1, rfl⟩
  exact ⟨second.parser, htook, hresult.2, (rendered_results keepsText_spelled).2.1 htook⟩

end Parser

end Earley
