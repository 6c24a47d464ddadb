import Earley.Proofs.Chart.Viability
import Earley.Proofs.Parser.Results

/-!
# The language that a parser recognizes

Where no reducer refuses, a parser takes exactly the beginnings that the grammar allows, token by
token, and it has results exactly behind the sentences of the grammar. A token that cannot go on is
refused at once, and the parser stays where it was.

## Main results

* `Chart.Reads.isEmpty_iff`, `Chart.Reads.results_ne_nil_iff`: columns without items and charts
  without results
* `Parser.finish_ne_nil_iff`: a parser has results behind the sentences only
* `Parser.feed_error_eq_none_iff`: a parser takes a token if the grammar allows it there
-/

namespace Earley

namespace Chart

variable {g : Grammar} {input tokens : List Token} {chart : Chart}

/-- The last column of a chart is empty if no stem is charted there. -/
theorem Reads.isEmpty_iff_charted (h : Reads g input chart) :
    chart.head.isEmpty = true ↔ ¬∃ s : Stem, s.Charted g input input.length := by
  obtain ⟨stems, htraces, -, hmem⟩ := h.faithful_head
  have hsize : chart.head.items.size = stems.length := htraces.size
  have hempty : chart.head.isEmpty = true ↔ stems = [] := by
    rw [Column.isEmpty, Array.isEmpty_iff_size_eq_zero, hsize, List.length_eq_zero_iff]
  rw [hempty, List.eq_nil_iff_forall_not_mem, not_exists]
  exact forall_congr' fun s => not_congr (hmem s)

/-- **The last column of a chart is empty** exactly if the input is not viable. -/
theorem Reads.isEmpty_iff (hg : g.NeverRejects) (h : Reads g input chart) (hne : input ≠ []) :
    chart.head.isEmpty = true ↔ ¬g.Viable input := by
  rw [h.isEmpty_iff_charted, Stem.exists_charted_iff hg hne]

/-- **A chart has results** exactly if its input is a sentence. -/
theorem Reads.results_ne_nil_iff (hg : g.NeverRejects) (h : Reads g input chart) :
    chart.results g.start ≠ [] ↔ g.Sentence input := by
  obtain ⟨trees, -, hmem, hresults⟩ := results_eq h
  have hnil : chart.results g.start = [] ↔ trees = [] := by
    rw [← List.map_eq_nil_iff (f := some), hresults, List.map_eq_nil_iff]
  rw [ne_eq, hnil, List.eq_nil_iff_forall_not_mem, not_forall_not, Grammar.sentence_iff]
  refine exists_congr fun tree => ?_
  rw [hmem]
  constructor
  · intro hparses
    exact ⟨hparses.fits, hparses.admissible, hparses.tokens⟩
  · rintro ⟨hfits, hadm, htokens⟩
    exact ⟨hfits, htokens, hadm, hfits.exists_value hg 0⟩

/-- Tokens that fill columns are viable. -/
theorem Fills.viable {t : Token} (hg : g.NeverRejects) (h : Fills g input (tokens ++ [t])) :
    g.Viable (input ++ tokens ++ [t]) := by
  obtain ⟨chart, hreads, hfull⟩ := h tokens t (List.prefix_refl _)
  by_contra hnot
  rw [(hreads.isEmpty_iff hg (by simp)).mpr hnot] at hfull
  exact nomatch hfull

end Chart

namespace Parser

variable {Chunk Mark : Type} {lexer : Lexer Chunk Mark} {g : Grammar} {input : List Token}
  {p : Parser lexer} {fuel : Nat} {chunk : Chunk} {fed : Fed lexer} {t : Token}

theorem finish_ne_nil_iff_of_reads (hg : g.NeverRejects) (hgrammar : p.grammar = g)
    (hreads : Chart.Reads g input p.head.chart) (hopen : p.blocked = false) :
    p.finish ≠ [] ↔ g.Sentence input := by
  rw [← hreads.results_ne_nil_iff hg, finish, hopen, hgrammar]
  rfl

/-- Nothing that begins with a refused token is a sentence. -/
theorem not_sentence_of_isEmpty {taken : List Token} {chart : Chart} (hg : g.NeverRejects)
    (hchart : Chart.Reads g (input ++ taken ++ [t]) chart) (hempty : chart.head.isEmpty = true)
    (more : List Token) : ¬g.Sentence (input ++ taken ++ [t] ++ more) := by
  intro hsentence
  have hviable : g.Viable (input ++ taken ++ [t]) := hsentence.viable.of_append
  exact (hchart.isEmpty_iff hg (by simp)).mp hempty hviable

/-- **A parser has results behind the sentences only**, where no reducer refuses: behind the tokens
it has taken, and behind a further chunk. If that is refused, no sentence goes on with it. -/
theorem finish_ne_nil_iff (hg : g.NeverRejects) (hp : p.Consumed g input) :
    (p.blocked = false → (p.finish ≠ [] ↔ g.Sentence input)) ∧
      ∀ fuel chunk fed, p.feed fuel chunk = some fed →
        (lexer.read p.head.resume chunk).error = none →
          (fed.error = none ∧ fed.parser.finish ≠ [] ↔ g.Sentence (input ++ p.tokensOf chunk)) ∧
            (fed.error ≠ none → ∀ more, ¬g.Sentence (input ++ p.tokensOf chunk ++ more)) := by
  obtain ⟨hgrammar, hreads⟩ := hp.reads
  refine ⟨finish_ne_nil_iff_of_reads hg hgrammar hreads, ?_⟩
  intro fuel chunk fed hfeed hread
  obtain ⟨hgrammar', htakes⟩ := takes_feed hgrammar hreads hfeed
  cases htakes with
  | whole hreads' _ _ hopen herror =>
    refine ⟨?_, fun hne => absurd herror hne⟩
    rw [and_iff_right herror]
    exact finish_ne_nil_iff_of_reads hg hgrammar' hreads' hopen
  | unreadable _ _ hfailure => exact absurd hread hfailure
  | @unexpected taken rest t chart htokens _ _ hchart hempty herror =>
    obtain ⟨report, herror⟩ := herror
    have hnot : ∀ more, ¬g.Sentence (input ++ p.tokensOf chunk ++ more) := by
      intro more
      have := not_sentence_of_isEmpty hg hchart hempty (rest ++ more)
      simpa [htokens] using this
    refine ⟨iff_of_false (fun h => ?_) ?_, fun _ => hnot⟩
    · exact absurd (h.1.symm.trans herror) (by simp)
    · simpa using hnot []

/-- A letter behind a padding that is empty and may be doubled without end. -/
def padded : Grammar where
  start := "S"
  rules :=
    [{ name := "S", symbols := [.nonterminal "N", .literal "a" false] },
     { name := "N", symbols := [] },
     { name := "N", symbols := [.nonterminal "N", .nonterminal "N"] }]

theorem neverRejects_padded : padded.NeverRejects := by
  intro rule hrule vs origin
  simp only [padded, List.mem_cons, List.not_mem_nil, or_false] at hrule
  rcases hrule with rfl | rfl | rfl <;> exact ⟨_, rfl⟩

theorem finish_ne_nil_padded :
    ∃ p fed, start prepared padded false 20 = some p ∧ p.feed 20 [.ok { value := "a" }] = some fed ∧
      fed.error = none ∧ fed.parser.finish ≠ [] ∧ padded.Sentence [{ value := "a" }] := by
  have hrun : ((start prepared padded false 20).bind fun p =>
      p.feed 20 [.ok { value := "a" }]).any (fun fed =>
        fed.error.isNone && !fed.parser.finish.isEmpty) = true := by decide
  obtain ⟨fed, hfed, hresult⟩ := (Option.any_eq_true _ _).mp hrun
  obtain ⟨p, hp, hfeed⟩ := Option.bind_eq_some_iff.mp hfed
  have hresult : fed.error = none ∧ fed.parser.finish ≠ [] := by simpa using hresult
  have hconsumed : p.Consumed padded [] := consumed_of_start hp
  have hsentence :=
    ((finish_ne_nil_iff neverRejects_padded hconsumed).2 20 _ fed hfeed rfl).1.mp hresult
  exact ⟨p, fed, hp, hfeed, hresult.1, hresult.2, hsentence⟩

/-- **A parser takes a token exactly if the grammar allows it there**, where no reducer refuses.
Otherwise it refuses this token behind the ones it has taken, and stays where it was. -/
theorem feed_error_eq_none_iff (hg : g.NeverRejects) (hp : p.Consumed g input)
    (hfeed : p.feed fuel chunk = some fed) (htoken : p.tokensOf chunk = [t])
    (hread : (lexer.read p.head.resume chunk).error = none) :
    (fed.error = none ↔ g.Viable (input ++ [t])) ∧
      (¬g.Viable (input ++ [t]) →
        (∃ report, fed.error = some (.unexpected t input.length report)) ∧
          fed.parser.current = input.length) := by
  obtain ⟨hgrammar, hreads⟩ := hp.reads
  obtain ⟨-, htakes⟩ := takes_feed hgrammar hreads hfeed
  rw [htoken] at htakes
  cases htakes with
  | whole _ hfills _ _ herror =>
    have hviable : g.Viable (input ++ [t]) := by
      have hfilled : g.Viable (input ++ [] ++ [t]) := Chart.Fills.viable hg hfills
      rwa [List.append_nil] at hfilled
    exact ⟨iff_of_true herror hviable, fun hnot => absurd hviable hnot⟩
  | unreadable _ _ hfailure => exact absurd hread hfailure
  | @unexpected taken rest t' chart htokens hreads' _ hchart hempty herror =>
    -- of a single token none is taken before the refused one
    obtain ⟨rfl, htail⟩ := List.append_eq_singleton_iff.mp htokens.symm |>.resolve_right (by simp)
    obtain ⟨rfl, -⟩ := List.cons.inj htail
    rw [List.append_nil] at hchart herror hreads'
    have hnot : ¬g.Viable (input ++ [t']) := (hchart.isEmpty_iff hg (by simp)).mp hempty
    obtain ⟨report, herror⟩ := herror
    exact ⟨iff_of_false (by simp [herror]) hnot, fun _ => ⟨⟨report, herror⟩, hreads'.index_eq⟩⟩

theorem feed_error_padded :
    ∃ (p : Parser prepared) (fed : Fed prepared), p.Consumed padded [{ value := "a" }] ∧
      p.feed 20 [.ok { value := "b" }] = some fed ∧
        ¬padded.Viable [{ value := "a" }, { value := "b" }] ∧
          (∃ report, fed.error = some (.unexpected { value := "b" } 1 report)) ∧
            fed.parser.current = 1 := by
  have hrun : ((start prepared padded false 20).bind fun p =>
      p.feed 20 [.ok { value := "a" }]).any (fun first =>
        first.error.isNone && (first.parser.feed 20 [.ok { value := "b" }]).any fun fed =>
          fed.error.isSome) = true := by decide
  obtain ⟨first, hfirst, hrun⟩ := (Option.any_eq_true _ _).mp hrun
  obtain ⟨hsound, hrun⟩ := (Bool.and_eq_true _ _).mp hrun
  obtain ⟨fed, hfeed, hresult⟩ := (Option.any_eq_true _ _).mp hrun
  obtain ⟨p, hp, hread⟩ := Option.bind_eq_some_iff.mp hfirst
  have hconsumed : first.parser.Consumed padded [{ value := "a" }] :=
    ((consumed_of_start hp).of_error_eq_none hread (by simpa using hsound)).1
  have hspec := feed_error_eq_none_iff neverRejects_padded hconsumed hfeed rfl rfl
  have hnot : ¬padded.Viable [{ value := "a" }, { value := "b" }] := by
    intro hviable
    rw [hspec.1.mpr hviable] at hresult
    exact nomatch hresult
  exact ⟨first.parser, fed, hconsumed, hfeed, hnot, hspec.2 hnot⟩

end Parser

end Earley
