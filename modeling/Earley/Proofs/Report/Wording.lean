import Earley.Proofs.Report.Collapsing
import Earley.Proofs.Text.Lines

/-!
# The text of a report

A report is a text of lines: the headline, what was found and whether more input was expected, and
then for each symbol that was expected a line that announces it and the trail of the item that waits
for it. So the text says in what way the input was refused, and the symbols that were expected can be
read off it, as long as nothing that is written into a line has a line end of its own.

## Main definitions

* `Report.announcement`, `Report.itemText`: how a symbol is announced, and how items are written
* `Report.Plain`: no part of a report breaks its line
* `Report.announced`: the lines of a text that announce a symbol

## Main results

* `Report.render_of_expected`, `Report.render_of_nothing`: the text of a report, whether symbols were
  expected or not
* `Report.prefix_render_iff`: which of the two it is, by the beginning of the text
* `Report.announced_render`: the announcements in the text
-/

namespace Earley.Report

/-- How a report announces a symbol. -/
def announcement (s : Symbol) : String :=
  "A " ++ s.description ++ " based on:"

/-- How a report writes a list of items. -/
def itemText (items : List Item) : String :=
  String.join ((itemLines items).map (· ++ "\n"))

/-- **No part of a report breaks its line**: neither what was found nor how the symbols and the items
are written. -/
structure Plain (r : Report) : Prop where
  found : '\n' ∉ r.found.toList
  symbols : ∀ e ∈ r.expected, '\n' ∉ e.symbol.description.toList
  trails : ∀ e ∈ r.expected, ∀ item ∈ e.trail, '\n' ∉ item.display.toList
  items : ∀ item ∈ r.items, '\n' ∉ item.display.toList

instance (r : Report) : Decidable r.Plain :=
  decidable_of_iff ('\n' ∉ r.found.toList ∧
      (∀ e ∈ r.expected, '\n' ∉ e.symbol.description.toList) ∧
      (∀ e ∈ r.expected, ∀ item ∈ e.trail, '\n' ∉ item.display.toList) ∧
      ∀ item ∈ r.items, '\n' ∉ item.display.toList)
    ⟨fun ⟨hfound, hsymbols, htrails, hitems⟩ => ⟨hfound, hsymbols, htrails, hitems⟩,
      fun h => ⟨h.found, h.symbols, h.trails, h.items⟩⟩

/-- Whether a line announces a symbol: then it stands out at the left. -/
def announces (line : List Char) : Bool :=
  line.take 2 == ['A', ' ']

/-- **The lines of a text that announce a symbol**, those of a headline left out. -/
def announced (headline text : String) : List (List Char) :=
  ((Text.lines text.toList).drop (Text.lines headline.toList).length).filter announces

variable {r : Report} {items : List Item} {line : String}

/-! ## The whole text -/

/-- A report is written line by line. -/
theorem render_eq (r : Report) :
    r.render = r.headline ++ "\n" ++ String.join (r.bodyLines.map (· ++ "\n")) := by
  rw [render, Text.intercalate_concat_empty (List.cons_ne_nil _ _), List.map_cons, String.join_cons]

/-- **The text of a report that expects symbols.** -/
theorem render_of_expected (h : r.expected ≠ []) :
    r.render = r.headline ++ "\nUnexpected " ++ r.found
      ++ ". Instead, I was expecting to see one of the following:\n\n"
      ++ String.join (r.expected.map fun e =>
          announcement e.symbol ++ "\n" ++ itemText e.trail) := by
  have hbody : r.bodyLines = ("Unexpected " ++ r.found
      ++ ". Instead, I was expecting to see one of the following:\n")
        :: r.expected.flatMap expectationLines := by
    rw [bodyLines, if_neg (by simpa using h)]
  have hentries : String.join ((r.expected.flatMap expectationLines).map (· ++ "\n")) =
      String.join (r.expected.map fun e => announcement e.symbol ++ "\n" ++ itemText e.trail) := by
    apply String.toList_injective
    simp [List.map_flatMap, List.flatMap_assoc, List.flatMap_map, expectationLines, announcement,
      itemText]
  have hfeed : "\nUnexpected " = "\n" ++ "Unexpected " := rfl
  have hblank : ". Instead, I was expecting to see one of the following:\n\n" =
      ". Instead, I was expecting to see one of the following:\n" ++ "\n" := rfl
  rw [render_eq, hbody, List.map_cons, String.join_cons, hentries, hfeed, hblank]
  simp only [String.append_assoc]

/-- **The text of a report that expects no more input.** -/
theorem render_of_nothing (h : r.expected = []) :
    r.render = r.headline ++ "\nUnexpected " ++ r.found
      ++ ". I did not expect any more input. Here is the state of my parse table:\n\n"
      ++ itemText r.items := by
  have hbody : r.bodyLines = ("Unexpected " ++ r.found ++ ". I did not expect any more input. "
      ++ "Here is the state of my parse table:\n") :: itemLines r.items := by
    rw [bodyLines, if_pos (by simpa using h)]
  have hfeed : "\nUnexpected " = "\n" ++ "Unexpected " := rfl
  have hblank : ". I did not expect any more input. Here is the state of my parse table:\n\n" =
      ". I did not expect any more input. " ++ "Here is the state of my parse table:\n" ++ "\n" :=
    rfl
  rw [render_eq, hbody, List.map_cons, String.join_cons, itemText, hfeed, hblank]
  simp only [String.append_assoc]

/-- **A text says that no more input was expected** exactly if no symbol was. -/
theorem prefix_render_iff (r : Report) :
    (r.headline ++ "\nUnexpected " ++ r.found ++ ". I did not expect any more input.").toList <+:
      r.render.toList ↔ r.expected = [] := by
  constructor
  · intro hprefix
    by_contra hne
    -- the two kinds of texts part in the word behind what was found
    rw [render_of_expected hne] at hprefix
    simp [List.prefix_append_right_inj] at hprefix
  · intro hnone
    rw [render_of_nothing hnone]
    simp [List.prefix_append_right_inj]

/-! ## Announcements -/

/-- A line of items is that of one of them, or stands for more of the same. -/
theorem itemLines_cases (h : line ∈ itemLines items) :
    (∃ item ∈ items, line = itemLine item.display) ∨ ∃ n, line = moreLine n := by
  obtain ⟨⟨display, count⟩, hrun, hline⟩ := List.mem_flatMap.mp h
  change line ∈ runLines display count at hline
  rw [runLines_eq] at hline
  rcases List.mem_cons.mp hline with rfl | hmore
  · obtain ⟨item, hitem, rfl⟩ := List.mem_map.mp (mem_of_mem_runs hrun)
    exact .inl ⟨item, hitem, rfl⟩
  · split at hmore
    · exact .inr ⟨count - 1, List.mem_singleton.mp hmore⟩
    · cases hmore

/-- The lines of items are further to the right, so they announce nothing. -/
theorem filter_lines_itemLines (h : ∀ item ∈ items, '\n' ∉ item.display.toList) :
    ((itemLines items).flatMap fun line => Text.lines line.toList).filter announces = [] := by
  rw [List.filter_flatMap, List.flatMap_eq_nil_iff]
  intro line hline
  rcases itemLines_cases hline with ⟨item, hitem, rfl⟩ | ⟨n, rfl⟩
  · have hsingle : '\n' ∉ (itemLine item.display).toList := by
      simpa [itemLine] using h item hitem
    rw [Text.lines_of_notMem hsingle]
    simp [itemLine, announces]
  · rw [Text.lines_of_notMem (notMem_moreLine (by decide) (by decide) (by decide) n)]
    simp [moreLine, announces]

/-- The lines that say what was found announce nothing. -/
theorem filter_lines_found {found words : String} (hfound : '\n' ∉ found.toList)
    (hwords : '\n' ∉ words.toList) :
    (Text.lines ("Unexpected " ++ found ++ words ++ "\n").toList).filter announces = [] := by
  have hsplit : ("Unexpected " ++ found ++ words ++ "\n").toList =
      ("Unexpected " ++ found ++ words).toList ++ '\n' :: [] := by
    simp
  have hsingle : '\n' ∉ ("Unexpected " ++ found ++ words).toList := by
    simp [hfound, hwords]
  rw [hsplit, Text.lines_append_feed, Text.lines_of_notMem hsingle]
  simp [announces, Text.lines]

/-- An expectation announces its symbol and nothing else. -/
theorem filter_lines_expectation {e : Expectation} (hsymbol : '\n' ∉ e.symbol.description.toList)
    (htrail : ∀ item ∈ e.trail, '\n' ∉ item.display.toList) :
    ((expectationLines e).flatMap fun line => Text.lines line.toList).filter announces =
      [(announcement e.symbol).toList] := by
  have hsingle : '\n' ∉ (announcement e.symbol).toList := by
    simp [announcement, hsymbol]
  have hfirst : announces (announcement e.symbol).toList = true := by
    simp [announcement, announces]
  rw [expectationLines, List.flatMap_cons, List.filter_append, filter_lines_itemLines htrail]
  show (Text.lines (announcement e.symbol).toList).filter announces ++ [] = _
  rw [Text.lines_of_notMem hsingle, List.append_nil, List.filter_cons_of_pos hfirst,
    List.filter_nil]

/-- **The text of a report announces the symbols that were expected**, in order, and no others. -/
theorem announced_render (h : r.Plain) :
    announced r.headline r.render = r.expected.map fun e => (announcement e.symbol).toList := by
  have htext : r.render.toList =
      r.headline.toList ++ '\n' :: (String.join (r.bodyLines.map (· ++ "\n"))).toList := by
    rw [render_eq]
    simp
  have hlast : [([] : List Char)].filter announces = [] := rfl
  rw [announced, htext, Text.lines_append_feed, List.drop_left, Text.lines_join, List.filter_append,
    hlast, List.append_nil]
  by_cases hnone : r.expected = []
  · -- below the first lines there are those of items only
    have hbody : r.bodyLines = ("Unexpected " ++ r.found ++ (". I did not expect any more input. "
        ++ "Here is the state of my parse table:") ++ "\n") :: itemLines r.items := by
      rw [bodyLines, if_pos (by simpa using hnone)]
      simp [String.append_assoc]
    rw [hbody, List.flatMap_cons, List.filter_append,
      filter_lines_found h.found (by decide), filter_lines_itemLines h.items, hnone]
    rfl
  · have hbody : r.bodyLines = ("Unexpected " ++ r.found
        ++ ". Instead, I was expecting to see one of the following:" ++ "\n")
          :: r.expected.flatMap expectationLines := by
      rw [bodyLines, if_neg (by simpa using hnone)]
      simp [String.append_assoc]
    rw [hbody, List.flatMap_cons, List.filter_append, filter_lines_found h.found (by decide),
      List.nil_append, List.flatMap_assoc, List.filter_flatMap, List.map_eq_flatMap]
    apply List.flatMap_congr
    intro e he
    exact filter_lines_expectation (h.symbols e he) (h.trails e he)

end Earley.Report
