import Earley.Proofs.Chart.Nulled
import Earley.Proofs.Chart.Trail
import Earley.Proofs.Parser.Session

/-!
# The columns of a session

Whatever a session shows is in order: all columns that a parser holds, now or behind a rewind, the
trails of all items in them, and the names that the items keep.

## Main results

* `Parser.Reached.grown`: the charts of a session are ones behind some input, with empty columns
  behind them at most
* `Parser.column_orderly`: their columns are in order
* `Parser.trail_tracesBack`: their trails lead back to the beginning, or to where they have been
* `Parser.chart_keepsNames`: their items keep the names of the derivations without input inside
-/

namespace Earley.Parser

variable {Chunk Mark : Type} {lexer : Lexer Chunk Mark} {g : Grammar} {p : Parser lexer}
  {chart : Chart} {column : Column} {item : Item} {j k : Nat}

/-- **The charts of a session** come to be by tokens and by empty columns. -/
theorem Reached.grown (h : p.Reached g) : p.grammar = g ∧ p.Carries (Chart.Grown g) :=
  h.carries (fun _ _ hchart => .reads (.initial hchart)) (fun _ _ _ _ hgrown => hgrown.shift)
    (fun _ => .blank)

theorem Reached.grown_of_column? (h : p.Reached g) (hchart : p.column? j = some chart) :
    Chart.Grown g chart :=
  h.grown.2.column? (fun _ => .blank) hchart

/-- **Every column of a session is in order.** -/
theorem column_orderly (hp : p.Reached g) (hchart : p.column? j = some chart)
    (hcolumn : chart.column? k = some column) : column.Orderly g chart k :=
  (hp.grown_of_column? hchart).orderly hcolumn

/-- Columns 0 and 1 of a chart that ends with a refused token: in the first the paddings ask for
themselves and go back nowhere, in the second the sentence goes back to the first. -/
theorem column_orderly_padded :
    ∃ (p : Parser prepared) (chart : Chart) (column next : Column), p.Reached padded ∧
      p.blocked = true ∧ p.column? 2 = some chart ∧
        chart.column? 0 = some column ∧ column.wanted.get "N" = [0, 2, 4] ∧
          column.empties.get "N" = [1] ∧
          column.items.toList.map Item.home = List.replicate 6 none ∧
          column.Orderly padded chart 0 ∧
        chart.column? 1 = some next ∧ next.items.toList.map Item.home = [some 0] ∧
          next.Orderly padded chart 1 := by
  have hrun : ((start prepared padded true 20).bind fun p =>
      p.feed 20 [.ok { value := "a" }, .ok { value := "b" }]).any (fun fed =>
        fed.parser.blocked && (fed.parser.column? 2).any fun chart =>
          (chart.column? 0).any (fun column =>
            column.wanted.get "N" == [0, 2, 4] && column.empties.get "N" == [1] &&
              column.items.toList.map Item.home == List.replicate 6 none) &&
          (chart.column? 1).any fun next => next.items.toList.map Item.home == [some 0]) =
      true := by decide +kernel
  obtain ⟨fed, hfed, hrun⟩ := (Option.any_eq_true _ _).mp hrun
  obtain ⟨hblocked, hrun⟩ := Bool.and_eq_true_iff.mp hrun
  obtain ⟨chart, hchart, hrun⟩ := (Option.any_eq_true _ _).mp hrun
  obtain ⟨hfirst, hsecond⟩ := Bool.and_eq_true_iff.mp hrun
  obtain ⟨column, hcolumn, hlists⟩ := (Option.any_eq_true _ _).mp hfirst
  obtain ⟨next, hnext, hback⟩ := (Option.any_eq_true _ _).mp hsecond
  obtain ⟨p, hp, hfeed⟩ := Option.bind_eq_some_iff.mp hfed
  have hreached : fed.parser.Reached padded := (reached_of_start hp).feed hfeed
  simp only [Bool.and_eq_true, beq_iff_eq] at hlists
  obtain ⟨⟨hwanted, hempties⟩, hhome⟩ := hlists
  exact ⟨fed.parser, chart, column, next, hreached, hblocked, hchart, hcolumn, hwanted, hempties,
    hhome, column_orderly hreached hchart hcolumn, hnext, eq_of_beq hback,
    column_orderly hreached hchart hnext⟩

/-- **The trail of every item of a session leads back**: over places in the chart, none of them
twice, from each item to the first that waits for it, up to one that nobody asked for or one whose
first asker has been shown. -/
theorem trail_tracesBack (hp : p.Reached g) (hchart : p.column? j = some chart)
    {place : Chart.Place} (hitem : chart.item? place = some item) :
    ∃ places, chart.TracesBack g place places :=
  (hp.grown_of_column? hchart).exists_tracesBack hitem

/-- Sentences in brackets, or with letters behind them. -/
def bracketed : Grammar where
  start := "S"
  rules :=
    [{ name := "S", symbols := [.literal "(" false, .nonterminal "S", .literal ")" false] },
     { name := "S", symbols := [.nonterminal "S", .literal "x" false] },
     { name := "S", symbols := [.literal "x" false] }]

/-- A letter in a bracket: the trail goes on in column 0, where a sentence asks for itself. -/
theorem trail_bracketed :
    ∃ (p : Parser prepared) (chart : Chart) (item : Item), p.Reached bracketed ∧
      p.column? 1 = some chart ∧ chart.item? ⟨1, 3⟩ = some item ∧
        (chart.trail ⟨1, 3⟩).map Item.display =
          ["S → ● \"x\"", "S → \"(\" ● S \")\"", "S → ● S \"x\""] ∧
          ∃ places, places.length = 3 ∧ chart.TracesBack bracketed ⟨1, 3⟩ places := by
  have hrun : ((start prepared bracketed true 20).bind fun p =>
      p.feed 20 [.ok { value := "(" }]).any (fun fed =>
        (fed.parser.column? 1).any fun chart => (chart.item? ⟨1, 3⟩).any fun _ =>
          (chart.trail ⟨1, 3⟩).map Item.display ==
            ["S → ● \"x\"", "S → \"(\" ● S \")\"", "S → ● S \"x\""]) = true := by decide +kernel
  obtain ⟨fed, hfed, hrun⟩ := (Option.any_eq_true _ _).mp hrun
  obtain ⟨chart, hchart, hrun⟩ := (Option.any_eq_true _ _).mp hrun
  obtain ⟨item, hitem, hrun⟩ := (Option.any_eq_true _ _).mp hrun
  obtain ⟨p, hp, hfeed⟩ := Option.bind_eq_some_iff.mp hfed
  have hreached : fed.parser.Reached bracketed := (reached_of_start hp).feed hfeed
  have hdisplay := eq_of_beq hrun
  obtain ⟨places, hplaces⟩ := trail_tracesBack hreached hchart hitem
  have hlength : places.length = 3 := by
    have hitems := congrArg List.length hplaces.items
    rw [List.length_map, List.length_map] at hitems
    rw [← hitems, ← List.length_map, hdisplay]
    rfl
  exact ⟨fed.parser, chart, item, hreached, hchart, hitem, hdisplay, places, hlength, hplaces⟩

/-- **The items of a session keep the names** of the derivations without input that they contain.
A record can be written along with every chart, and by any record each item that has taken no input
has just these names, so what repeats its own name is subsumed, and nothing that is subsumed or
rejected is part of something else. -/
theorem chart_keepsNames (hp : p.Reached g) (hchart : p.column? j = some chart) :
    (∃ records, Chart.Recorded g chart records) ∧
      ∀ records, Chart.Recorded g chart records → chart.KeepsNames records :=
  ⟨(hp.grown_of_column? hchart).exists_recorded, fun _ hrecords => hrecords.keepsNames⟩

/-- Sentences in which a name may derive nothing, alone or twice over. -/
def doubled : Grammar where
  start := "S"
  rules :=
    [{ name := "S", symbols := [.nonterminal "E", .literal "a" false, .nonterminal "E"] },
     { name := "E", symbols := [] },
     { name := "E", symbols := [.nonterminal "E", .nonterminal "E"] }]

/-- The name derives nothing twice over behind a letter, and repeats itself. -/
theorem chart_keepsNames_doubled :
    ∃ (p : Parser prepared) (chart : Chart) (records : List (List Stem)) (item : Item) (s d : Stem),
      p.Reached doubled ∧ p.column? 1 = some chart ∧ Chart.Recorded doubled chart records ∧
        chart.KeepsNames records ∧ chart.item? ⟨1, 5⟩ = some item ∧ item.nulled = ["E"] ∧
          item.outcome = .subsumed ∧ Chart.stem? records ⟨1, 5⟩ = some s ∧ d.Inside s ∧
            d.name = "E" := by
  have hrun : ((start prepared doubled true 20).bind fun p =>
      p.feed 20 [.ok { value := "a" }]).any (fun fed =>
        (fed.parser.column? 1).any fun chart => (chart.item? ⟨1, 5⟩).any fun item =>
          item.isComplete && item.origin == 1 && item.name == "E" && item.nulled == ["E"] &&
            decide (item.outcome = .subsumed)) = true := by decide +kernel
  obtain ⟨fed, hfed, hrun⟩ := (Option.any_eq_true _ _).mp hrun
  obtain ⟨chart, hchart, hrun⟩ := (Option.any_eq_true _ _).mp hrun
  obtain ⟨item, hitem, hrun⟩ := (Option.any_eq_true _ _).mp hrun
  obtain ⟨p, hp, hfeed⟩ := Option.bind_eq_some_iff.mp hfed
  have hreached : fed.parser.Reached doubled := (reached_of_start hp).feed hfeed
  obtain ⟨⟨records, hrecords⟩, hkeeps⟩ := chart_keepsNames hreached hchart
  have hnames := hkeeps records hrecords
  simp only [Bool.and_eq_true, beq_iff_eq, decide_eq_true_eq] at hrun
  obtain ⟨⟨⟨⟨hcomplete, ho⟩, hname⟩, hnulled⟩, houtcome⟩ := hrun
  -- the item has an entry, and since it is subsumed there is a stem of its name inside
  have hsome := hnames.isSome_stem? ⟨1, 5⟩
  rw [hitem, Option.isSome_some] at hsome
  obtain ⟨s, hs⟩ := Option.isSome_iff_exists.mp hsome
  obtain ⟨d, hd, hdname⟩ :=
    ((hnames.keepsNames _ item s hitem hs).subsumed_iff hcomplete ho).mp houtcome
  exact ⟨fed.parser, chart, records, item, s, d, hreached, hchart, hrecords, hnames, hitem,
    hnulled, houtcome, hs, hd, hdname.trans hname⟩

end Earley.Parser
