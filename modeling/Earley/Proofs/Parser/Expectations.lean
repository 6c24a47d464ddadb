import Earley.Proofs.Parser.Columns
import Earley.Proofs.Report.Wording

/-!
# What a report expects

A report goes through all items of the last column and names the symbols that could have come; the
next token is tried on the items that the column has noted when it was closed. Both come to the same
items, in the same order, so a token is refused exactly if it fits none of the symbols that the text
of the report names. This holds of every parser, whichever bookmarks it was restored from.

## Main definitions

* `Column.Noted`: a column has noted the items that wait for a token
* `Parser.Refuses`: a token in front of a chunk is refused, with a report on the last column

## Main results

* `Chart.expectations_eq`: one expectation for each item that was noted
* `Chart.scan_eq_nil_iff`, `Parser.refuses_iff`: which tokens are refused
* `Parser.report_exact`: reports are exact
-/

namespace Earley

/-! ## Noted items -/

/-- **A column has noted the items that wait for a token**, in order. -/
def Column.Noted (column : Column) : Prop :=
  column.scannable.toList = column.items.toList.findIdxs Item.awaitsToken

namespace Chart

variable {g : Grammar} {fuel : Nat} {chart next : Chart} {t : Token} {e : Expectation}

/-- Closing a column in which nothing was noted before notes these items. -/
theorem noted_close (h : close g fuel chart = some next) (hnone : chart.head.scannable = #[]) :
    next.head.Noted := by
  obtain ⟨head, hclose, rfl⟩ := Option.map_eq_some_iff.mp h
  exact Column.scannable_of_closeFrom hnone hclose

theorem noted_blank (chart : Chart) : chart.blank.head.Noted := rfl

/-! ## Expectations -/

/-- The expectation of an item is that of its place. -/
theorem expectation?_eq (chart : Chart) (item : Item) (entry : Nat) :
    (chart.expectation? item entry).map some =
      if item.awaitsToken then
        some (item.next?.map fun symbol =>
          { symbol, trail := chart.trail { column := chart.index, entry } })
      else none := by
  unfold expectation? Item.awaitsToken
  cases item.next? with
  | none => rfl
  | some symbol => cases hterminal : symbol.isTerminal <;> simp [hterminal]

/-- **There is one expectation for each item that was noted**, in their order: its next symbol, with
its trail. -/
theorem expectations_eq (h : chart.head.Noted) :
    chart.expectations.map some =
      chart.head.scannable.toList.map fun entry =>
        (chart.head.items[entry]?.bind Item.next?).map fun symbol =>
          { symbol, trail := chart.trail { column := chart.index, entry } } := by
  -- both sides go through the items with their places
  rw [h, expectations, List.findIdxs_eq_filterMap_zipIdx, List.map_filterMap, List.map_filterMap]
  refine List.filterMap_congr fun entry hentry => ?_
  obtain ⟨item, i⟩ := entry
  have hitem : chart.head.items[i]? = some item := by
    rw [← Array.getElem?_toList]
    exact List.mk_mem_zipIdx_iff_getElem?.mp hentry
  dsimp only
  rw [expectation?_eq]
  cases item.awaitsToken
  · rfl
  · simp [hitem]

/-- The expectations are those of the items that were noted. -/
theorem mem_expectations_iff (h : chart.head.Noted) :
    e ∈ chart.expectations ↔ ∃ entry ∈ chart.head.scannable.toList, ∃ item,
      chart.head.items[entry]? = some item ∧ item.next? = some e.symbol ∧
        e.trail = chart.trail { column := chart.index, entry } := by
  have hmem : e ∈ chart.expectations ↔ some e ∈ chart.expectations.map some := by simp
  rw [hmem, expectations_eq h, List.mem_map]
  refine exists_congr fun entry => and_congr_right fun _ => ?_
  obtain ⟨symbol, trail⟩ := e
  simp only [Option.map_eq_some_iff, Option.bind_eq_some_iff, Expectation.mk.injEq]
  constructor
  · rintro ⟨_, ⟨item, hitem, hnext⟩, rfl, rfl⟩
    exact ⟨item, hitem, hnext, rfl⟩
  · rintro ⟨item, hitem, hnext, rfl⟩
    exact ⟨symbol, ⟨item, hitem, hnext⟩, rfl, rfl⟩

/-- There is nothing to expect exactly if nothing was noted. -/
theorem expectations_eq_nil_iff (h : chart.head.Noted) :
    chart.expectations = [] ↔ chart.head.scannable = #[] := by
  have hlength := congrArg List.length (expectations_eq h)
  simp only [List.length_map, Array.length_toList] at hlength
  rw [← List.length_eq_zero_iff, hlength, Array.size_eq_zero_iff]

/-- **No item is moved over a token** exactly if none of the expected symbols takes it. -/
theorem scan_eq_nil_iff (h : chart.head.Noted) :
    chart.scan t = [] ↔ ∀ e ∈ chart.expectations, e.symbol.accepts t = false := by
  have hscan : chart.scan t = [] ↔ ∀ entry ∈ chart.head.scannable.toList, ∀ item,
      chart.head.items[entry]? = some item → item.next?.any (·.accepts t) = false := by
    simp only [scan, Column.itemsAt, List.filterMap_eq_nil_iff, List.mem_reverse,
      List.mem_filterMap, ite_eq_right_iff, reduceCtorEq, imp_false, Bool.not_eq_true]
    constructor
    · exact fun hnone entry hentry item hitem => hnone item ⟨entry, hentry, hitem⟩
    · rintro hnone item ⟨entry, hentry, hitem⟩
      exact hnone entry hentry item hitem
  rw [hscan]
  constructor
  · intro hnone e he
    obtain ⟨entry, hentry, item, hitem, hnext, -⟩ := (mem_expectations_iff h).mp he
    simpa [hnext] using hnone entry hentry item hitem
  · intro hnone entry hentry item hitem
    cases hnext : item.next? with
    | none => rfl
    | some symbol =>
      exact hnone ⟨symbol, _⟩ ((mem_expectations_iff h).mpr ⟨entry, hentry, item, hitem, hnext, rfl⟩)

end Chart

/-! ## Refused tokens -/

namespace Parser

variable {Chunk Mark : Type} {lexer : Lexer Chunk Mark} {p : Parser lexer} {fuel : Nat}
  {chunk : Chunk} {start mark : Mark} {reading : Reading Mark} {halt : Halt lexer} {t u : Token}
  {rest : List (Token × Mark)} {offset : Nat} {report : Report}

/-- Every parser has noted the items of its last column that wait for a token. -/
theorem Arises.noted (h : p.Arises) : p.head.chart.head.Noted :=
  (h.carries (P := fun chart => chart.head.Noted) (fun _ _ _ hchart => Chart.noted_close hchart rfl)
    (fun _ _ _ _ _ _ hchart => Chart.noted_close hchart rfl) (fun chart _ => chart.noted_blank)).head

/-- **A token in front of a chunk is refused**, with the text of the report on the last column. -/
def Refuses (p : Parser lexer) (fuel : Nat) (chunk : Chunk) (t : Token) : Prop :=
  ∃ fed e headline, p.feed fuel chunk = some fed ∧ fed.error = some e ∧
    e = .unexpected t p.current (p.head.chart.report headline (describeToken t)) ∧
      e.message = (p.head.chart.report headline (describeToken t)).render

/-- An unexpected token is the one that a run refused, behind the column that the run came to. -/
theorem refused_of_unexpected
    (h : (halt.conclude chunk start reading).error = some (.unexpected u offset report)) :
    offset = halt.parser.current ∧ ∃ mark, halt.refused = some (u, mark) := by
  unfold Halt.conclude at h
  split at h
  · next t mark hrefused =>
    obtain ⟨rfl, rfl, -⟩ := InputError.unexpected.inj (Option.some.inj h)
    exact ⟨rfl, mark, hrefused⟩
  · split at h
    · next e _ => cases htoken : e.token <;> simp [refuseUnreadable, htoken] at h
    · cases h

/-- If no item waits for the first token of a chunk, that is refused. -/
theorem refuses_of_scan_eq_nil
    (htokens : (lexer.read p.head.resume chunk).tokens = (t, mark) :: rest)
    (hscan : p.head.chart.scan t = []) (fuel : Nat) : p.Refuses fuel chunk t := by
  have hshift : p.unblock.head.chart.shift p.unblock.grammar fuel t = some p.head.chart.blank :=
    Chart.shift_of_scan_eq_nil hscan _ fuel
  have hrun : run fuel (lexer.read p.head.resume chunk).tokens p.unblock =
      some { parser := p.unblock.forget, refused := some (t, mark) } := by
    rw [htokens]
    exact run_cons_of_refused hshift rfl
  -- what is given up before the token is read is not the last column
  have hhead : p.unblock.forget.head = p.head := head_forget p.unblock
  refine ⟨p.unblock.forget.refuse chunk p.head.resume t mark, _,
    lexer.locate chunk p.head.resume mark t headline, ?_, ?_, rfl, rfl⟩
  · rw [feed_eq_map, hrun, Option.map_some]
    rfl
  · rw [refuse, current, hhead]
    rfl

/-- A first token that some item waits for is taken, and the run goes on behind it. -/
theorem exists_run_of_scan_ne_nil {fed : Fed lexer}
    (htokens : (lexer.read p.head.resume chunk).tokens = (t, mark) :: rest)
    (hscan : p.head.chart.scan t ≠ []) (hfeed : p.feed fuel chunk = some fed) :
    ∃ chart halt, chart.index = p.current + 1 ∧
      run fuel rest (p.unblock.forget.extend chart mark) = some halt ∧
        halt.conclude chunk p.head.resume (lexer.read p.head.resume chunk) = fed := by
  rw [feed_eq_map, htokens] at hfeed
  obtain ⟨halt, hrun, hfed⟩ := Option.map_eq_some_iff.mp hfeed
  obtain ⟨chart, hshift, ⟨hempty, -⟩ | ⟨-, hrest⟩⟩ := run_cons_cases hrun
  · exact absurd ((Chart.isEmpty_of_shift_iff hshift).mp hempty) hscan
  · exact ⟨chart, halt, Chart.index_shift hshift, hrest, hfed⟩

/-- **The first token of a chunk is refused** exactly if none of the expected symbols takes it. -/
theorem refuses_iff (hp : p.Arises)
    (htokens : (lexer.read p.head.resume chunk).tokens = (t, mark) :: rest) :
    p.Refuses fuel chunk t ↔ ∀ e ∈ p.head.chart.expectations, e.symbol.accepts t = false := by
  rw [← Chart.scan_eq_nil_iff hp.noted]
  refine ⟨?_, fun hscan => refuses_of_scan_eq_nil htokens hscan fuel⟩
  rintro ⟨fed, -, headline, hfeed, herror, rfl, -⟩
  by_contra hscan
  obtain ⟨chart, halt, hindex, hrun, rfl⟩ := exists_run_of_scan_ne_nil htokens hscan hfeed
  -- what is refused later is refused behind a later column
  obtain ⟨hoffset, -⟩ := refused_of_unexpected herror
  have hle : chart.index ≤ halt.parser.current := current_le_run hrun
  omega

/-- **A single token** is all that a chunk can be refused for as unexpected. -/
theorem exists_unexpected_iff (hp : p.Arises)
    (htokens : (lexer.read p.head.resume chunk).tokens = [(t, mark)]) :
    (∃ fed u offset report, p.feed fuel chunk = some fed ∧
        fed.error = some (.unexpected u offset report)) ↔
      ∀ e ∈ p.head.chart.expectations, e.symbol.accepts t = false := by
  have hrefuses : p.Refuses fuel chunk t ↔ _ := refuses_iff hp htokens
  rw [← hrefuses]
  constructor
  · rintro ⟨fed, u, offset, report, hfeed, herror⟩
    by_contra hnot
    have hscan : p.head.chart.scan t ≠ [] :=
      fun hscan => hnot (refuses_of_scan_eq_nil htokens hscan fuel)
    obtain ⟨chart, halt, -, hrun, rfl⟩ := exists_run_of_scan_ne_nil htokens hscan hfeed
    -- there is no token behind the first that could be refused
    obtain rfl := Option.some.inj hrun
    obtain ⟨-, _, hrefused⟩ := refused_of_unexpected herror
    exact nomatch hrefused
  · rintro ⟨fed, -, headline, hfeed, herror, rfl, -⟩
    exact ⟨fed, t, p.current, _, hfeed, herror⟩

/-- **Reports are exact.** A report on the last column of a parser expects the next symbol of each
item that waits for a token, in order. Its text announces these symbols, each in front of the trail of
its item, and no others; it says that no more input was expected exactly if no item waits for a token.
A token is refused exactly if none of these symbols takes it, and any token if there are none; what
the error says then is the text of such a report. -/
theorem report_exact (hp : p.Arises) :
    (p.head.chart.expectations.map some =
        p.head.chart.head.scannable.toList.map fun entry =>
          (p.head.chart.head.items[entry]?.bind Item.next?).map fun symbol =>
            { symbol, trail := p.head.chart.trail { column := p.current, entry } }) ∧
      (∀ headline found,
        (p.head.chart.head.scannable ≠ #[] →
          (p.head.chart.report headline found).render = headline ++ "\nUnexpected " ++ found
            ++ ". Instead, I was expecting to see one of the following:\n\n"
            ++ String.join (p.head.chart.expectations.map fun e =>
                "A " ++ e.symbol.description ++ " based on:" ++ "\n" ++ Report.itemText e.trail)) ∧
          (p.head.chart.head.scannable = #[] →
            (p.head.chart.report headline found).render = headline ++ "\nUnexpected " ++ found
              ++ ". I did not expect any more input. Here is the state of my parse table:\n\n"
              ++ Report.itemText p.head.chart.head.items.toList) ∧
          ((headline ++ "\nUnexpected " ++ found ++ ". I did not expect any more input.").toList <+:
              (p.head.chart.report headline found).render.toList ↔
            p.head.chart.head.scannable = #[]) ∧
          ((p.head.chart.report headline found).Plain →
            Report.announced headline (p.head.chart.report headline found).render =
              p.head.chart.expectations.map fun e =>
                ("A " ++ e.symbol.description ++ " based on:").toList)) ∧
        ∀ fuel chunk t mark rest, (lexer.read p.head.resume chunk).tokens = (t, mark) :: rest →
          (p.Refuses fuel chunk t ↔
              ∀ e ∈ p.head.chart.expectations, e.symbol.accepts t = false) ∧
            (rest = [] →
              ((∃ fed u offset report, p.feed fuel chunk = some fed ∧
                  fed.error = some (.unexpected u offset report)) ↔
                ∀ e ∈ p.head.chart.expectations, e.symbol.accepts t = false)) ∧
              (p.head.chart.head.scannable = #[] → p.Refuses fuel chunk t) := by
  have hnil := Chart.expectations_eq_nil_iff hp.noted
  refine ⟨Chart.expectations_eq hp.noted, fun headline found => ⟨fun hne => ?_, fun hnone => ?_, ?_, ?_⟩,
    ?_⟩
  · exact Report.render_of_expected (r := p.head.chart.report headline found) (mt hnil.mp hne)
  · exact Report.render_of_nothing (r := p.head.chart.report headline found) (hnil.mpr hnone)
  · rw [← hnil]
    exact Report.prefix_render_iff (p.head.chart.report headline found)
  · exact Report.announced_render
  · intro fuel chunk t mark rest htokens
    refine ⟨refuses_iff hp htokens, ?_, fun hnone => ?_⟩
    · rintro rfl
      exact exists_unexpected_iff hp htokens
    · -- there is no expectation that could take the token
      refine (refuses_iff hp htokens).mpr fun e he => ?_
      rw [hnil.mpr hnone] at he
      exact absurd he List.not_mem_nil

/-- Behind an open bracket, a bracket or a letter may come, but no closing bracket. -/
theorem report_bracketed :
    ∃ p : Parser prepared, p.Arises ∧
      (p.head.chart.report "Here" "a bracket").render = "\n".intercalate
        ["Here",
          "Unexpected a bracket. Instead, I was expecting to see one of the following:",
          "",
          "A \"(\" based on:",
          "    S → ● \"(\" S \")\"",
          "    S → \"(\" ● S \")\"",
          "    S → ● S \"x\"",
          "A \"x\" based on:",
          "    S → ● \"x\"",
          "    S → \"(\" ● S \")\"",
          "    S → ● S \"x\"",
          ""] ∧
      Report.announced "Here" (p.head.chart.report "Here" "a bracket").render =
        ["A \"(\" based on:".toList, "A \"x\" based on:".toList] ∧
        p.Refuses 20 [.ok { value := ")" }] { value := ")" } := by
  have hrun : ((start prepared bracketed true 20).bind fun p =>
      p.feed 20 [.ok { value := "(" }]).any (fun fed =>
        (fed.parser.head.chart.report "Here" "a bracket").render == "\n".intercalate
        ["Here",
          "Unexpected a bracket. Instead, I was expecting to see one of the following:",
          "",
          "A \"(\" based on:",
          "    S → ● \"(\" S \")\"",
          "    S → \"(\" ● S \")\"",
          "    S → ● S \"x\"",
          "A \"x\" based on:",
          "    S → ● \"x\"",
          "    S → \"(\" ● S \")\"",
          "    S → ● S \"x\"",
          ""] &&
        decide (fed.parser.head.chart.report "Here" "a bracket").Plain &&
        fed.parser.head.chart.expectations.map (·.symbol.description) == ["\"(\"", "\"x\""] &&
          fed.parser.head.chart.expectations.all fun e => !e.symbol.accepts { value := ")" }) =
      true := by decide +kernel
  obtain ⟨fed, hfed, hrun⟩ := (Option.any_eq_true _ _).mp hrun
  obtain ⟨p, hp, hfeed⟩ := Option.bind_eq_some_iff.mp hfed
  simp only [Bool.and_eq_true, beq_iff_eq, decide_eq_true_eq] at hrun
  obtain ⟨⟨⟨htext, hplain⟩, hexpected⟩, hnone⟩ := hrun
  have harises : fed.parser.Arises :=
    Session.unlogged (.start ⟨_, _, _, hp⟩) (.feed hfeed) trivial
  obtain ⟨-, hreport, hrefuses⟩ := report_exact harises
  refine ⟨fed.parser, harises, htext, ?_, ?_⟩
  · have hlines := (hreport "Here" "a bracket").2.2.2 hplain
    have hsymbols := congrArg (List.map fun s => ("A " ++ s ++ " based on:").toList) hexpected
    rw [List.map_map] at hsymbols
    exact hlines.trans hsymbols
  · refine (hrefuses 20 [.ok { value := ")" }] { value := ")" } _ [] rfl).1.mpr fun e he => ?_
    simpa using List.all_eq_true.mp hnone e he

end Parser

end Earley
