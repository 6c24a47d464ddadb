import Earley.Report.Basic
import Earley.Text.Decimal
import Mathlib.Data.List.Chain

/-!
# Collapsed lines

A report writes neighbouring items that look alike as one line and says on a second line how many
more of them there are. Nothing is lost: the second line can be told from that of any item, so the
lines of all items can be had back.

The lines can be written in one pass over the items. It is enough to keep how the latest item looks
and how many more like it have come since; that number is written down when another item comes, and
at the end.

## Main definitions

* `IsRuns`: the runs of a list, as long as they can be
* `Report.Collapse`, `Report.collapse`: the lines of items, written in one pass
* `Report.moreLine`, `Report.more?`: the line that stands for more of the same, and its number
* `Report.expand`: the lines that collapsed lines stand for

## Main results

* `isRuns_iff`: a list has one row of runs
* `Report.collapse_eq`: one pass writes the lines of the runs behind the lines that are there
* `Report.expand_itemLines`: collapsed lines are expanded to those of all items
* `Report.itemLines_lossless`: collapsing is lossless
-/

namespace Earley

/-! ## Runs -/

section Runs

variable {α : Type} [DecidableEq α] {a b : α} {as bs : List α} {rs : List (α × Nat)} {n : Nat}

/-- **The runs of a list, as long as they can be**: together they are the list, none is empty, and
neighbours are of different entries. -/
structure IsRuns (as : List α) (rs : List (α × Nat)) : Prop where
  unfold : unfoldRuns rs = as
  pos : ∀ r ∈ rs, 0 < r.2
  apart : rs.IsChain fun r s => r.1 ≠ s.1

/-- The first run is one of the first entry. -/
theorem head?_runs (as : List α) : (runs as).head?.map Prod.fst = as.head? := by
  cases as with
  | nil => rfl
  | cons a rest =>
    rw [runs]
    split
    · rfl
    · split
      · rfl
      · rfl

omit [DecidableEq α] in
theorem unfoldRuns_cons (r : α × Nat) (rest : List (α × Nat)) :
    unfoldRuns (r :: rest) = List.replicate r.2 r.1 ++ unfoldRuns rest :=
  List.flatMap_cons

/-- **Equal entries in front of a different one** are a run. -/
theorem runs_replicate_append (hbs : a ∉ bs.head?) :
    runs (List.replicate (n + 1) a ++ bs) = (a, n + 1) :: runs bs := by
  induction n with
  | zero =>
    rw [List.replicate_one, List.singleton_append, runs]
    split
    · next hnil => rw [hnil]
    · next b m later hcons =>
      -- what follows begins with the entry of its first run
      have hhead := head?_runs bs
      rw [hcons] at hhead
      have hne : a ≠ b := by
        rintro rfl
        exact hbs hhead.symm
      rw [if_neg hne, hcons]
  | succ n ih =>
    rw [List.replicate_succ, List.cons_append, runs, ih]
    exact if_pos rfl

/-- Runs that can be no longer are found again in their list. -/
theorem runs_unfoldRuns (hpos : ∀ r ∈ rs, 0 < r.2)
    (hapart : rs.IsChain fun r s => r.1 ≠ s.1) : runs (unfoldRuns rs) = rs := by
  induction rs with
  | nil => rfl
  | cons r rest ih =>
    obtain ⟨a, m⟩ := r
    obtain ⟨hm, hrest⟩ := List.forall_mem_cons.mp hpos
    obtain ⟨hfirst, hlater⟩ := List.isChain_cons.mp hapart
    have hruns := ih hrest hlater
    obtain ⟨n, rfl⟩ : ∃ n, m = n + 1 := Nat.exists_eq_add_one.mpr hm
    have hne : a ∉ (unfoldRuns rest).head? := by
      intro ha
      rw [Option.mem_def, ← head?_runs, hruns] at ha
      obtain ⟨s, hs, rfl⟩ := Option.map_eq_some_iff.mp ha
      exact hfirst s hs rfl
    rw [unfoldRuns_cons, runs_replicate_append hne, hruns]

/-- Neighbouring runs are of different entries. -/
theorem isChain_runs (as : List α) : (runs as).IsChain fun r s => r.1 ≠ s.1 := by
  induction as with
  | nil => exact .nil
  | cons a rest ih =>
    rw [runs]
    split
    · exact .singleton _
    · next b m later hcons =>
      rw [hcons] at ih
      split
      · next heq =>
        -- the first run gets longer, and its entry stays the same
        subst heq
        exact List.isChain_cons.mpr (List.isChain_cons.mp ih)
      · next hne => exact .cons_cons hne ih

/-- **A list has one row of runs** that can be no longer. -/
theorem isRuns_iff : IsRuns as rs ↔ rs = runs as := by
  constructor
  · rintro ⟨rfl, hpos, hapart⟩
    exact (runs_unfoldRuns hpos hapart).symm
  · rintro rfl
    exact ⟨unfoldRuns_runs as, fun r => runs_pos, isChain_runs as⟩

end Runs

namespace Report

/-! ## Lines that stand for more -/

/-- **The line that stands for more of the same.** -/
def moreLine (n : Nat) : String :=
  "    ^ " ++ toString n ++ " more lines identical to this"

/-- The line of an item that looks like this. -/
def itemLine (display : String) : String :=
  "    " ++ display

/-- **How many more of the same a line stands for**, if it says so. -/
def more? (line : String) : Option Nat :=
  (Text.natural? ((line.toList.drop 6).takeWhile Char.isDigit)).filter fun n => moreLine n == line

theorem runLines_eq (display : String) (m : Nat) :
    runLines display m = itemLine display :: if 1 < m then [moreLine (m - 1)] else [] := rfl

theorem itemLine_inj {d e : String} : itemLine d = itemLine e ↔ d = e := by
  rw [itemLine, itemLine, String.append_right_inj]

theorem isDigit_of_mem_toString {n : Nat} {c : Char} (hc : c ∈ (toString n).toList) :
    c.isDigit = true := by
  rw [Nat.toString_eq_ofList_toDigits, String.toList_ofList] at hc
  exact Nat.isDigit_of_mem_toDigits (by decide) (by decide) hc

/-- A number is read from its digits. -/
theorem natural?_toString (n : Nat) : Text.natural? (toString n).toList = some n := by
  have hall : (toString n).toList.all Char.isDigit = true :=
    List.all_eq_true.mpr fun c => isDigit_of_mem_toString
  rw [Text.natural?, if_pos, Nat.toString_eq_ofList_toDigits, String.toList_ofList]
  · exact congrArg some Nat.ofDigitChars_ten_toDigits
  · refine ⟨?_, hall⟩
    rw [Nat.toString_eq_ofList_toDigits, String.toList_ofList]
    exact Nat.toDigits_ne_nil

theorem toList_moreLine (n : Nat) :
    (moreLine n).toList =
      "    ^ ".toList ++ (toString n).toList ++ " more lines identical to this".toList := by
  rw [moreLine, String.toList_append, String.toList_append]

/-- **A line stands for more** exactly if it is written so. -/
theorem more?_eq_some_iff {line : String} {n : Nat} : more? line = some n ↔ line = moreLine n := by
  constructor
  · intro h
    have hsame := (Option.filter_eq_some_iff.mp h).2
    exact (eq_of_beq hsame).symm
  · rintro rfl
    -- the digits end where the words begin
    have hdigits : ((moreLine n).toList.drop 6).takeWhile Char.isDigit = (toString n).toList := by
      rw [toList_moreLine, List.append_assoc]
      show ((toString n).toList ++ ' ' :: _).takeWhile Char.isDigit = _
      rw [List.takeWhile_append_of_pos fun c => isDigit_of_mem_toString, List.takeWhile_cons_of_neg]
      · exact List.append_nil _
      · decide
    rw [more?, hdigits, natural?_toString]
    exact Option.filter_eq_some_iff.mpr ⟨rfl, beq_self_eq_true _⟩

/-- A line that stands for more is made up of digits and of the words around them. -/
theorem notMem_moreLine {c : Char} (hdigit : c.isDigit = false) (hmark : c ∉ "    ^ ".toList)
    (hwords : c ∉ " more lines identical to this".toList) (n : Nat) : c ∉ (moreLine n).toList := by
  rw [toList_moreLine]
  intro h
  rcases List.mem_append.mp h with hfront | hback
  · rcases List.mem_append.mp hfront with hmem | hmem
    · exact hmark hmem
    · exact absurd (isDigit_of_mem_toString hmem) (Bool.eq_false_iff.mp hdigit)
  · exact hwords hback

/-- The arrow of a rule stands in no line that stands for more. -/
theorem arrow_notMem_moreLine (n : Nat) : '→' ∉ (moreLine n).toList :=
  notMem_moreLine (by decide) (by decide) (by decide) n

/-- **The line of an item stands for no more** than that item. -/
theorem more?_itemLine (item : Item) : more? (itemLine item.display) = none := by
  refine Option.eq_none_iff_forall_ne_some.mpr fun n hn => ?_
  apply arrow_notMem_moreLine n
  rw [← more?_eq_some_iff.mp hn]
  simp [itemLine, Item.display, Rule.dotted, Rule.displayWith]

/-! ## One pass -/

/-- **Lines written in one pass**: the lines so far, how the latest item looks, and how many more
like it have come since. -/
structure Collapse where
  lines : List String
  last : Option String := none
  more : Nat := 0

namespace Collapse

/-- The lines, with a line for the items that have come since the latest one was written. -/
def flush (c : Collapse) : List String :=
  if 0 < c.more then c.lines ++ [moreLine c.more] else c.lines

/-- One more item that looks like this. -/
def push (c : Collapse) (display : String) : Collapse :=
  if c.last = some display then
    { c with more := c.more + 1 }
  else
    { lines := c.flush ++ [itemLine display], last := some display }

/-- What is pending belongs to the run of the latest line. -/
theorem flush_pending (lines : List String) (d : String) (m : Nat) :
    flush { lines := lines ++ [itemLine d], last := some d, more := m } =
      lines ++ runLines d (m + 1) := by
  rw [flush, runLines_eq]
  cases m with
  | zero => rfl
  | succ m => simp

/-- A run that goes on is written when it ends. -/
theorem flush_foldl_push (displays : List String) (lines : List String) (d : String) (m : Nat) :
    (displays.foldl push { lines := lines ++ [itemLine d], last := some d, more := m }).flush =
      lines ++ (runs (List.replicate (m + 1) d ++ displays)).flatMap fun r =>
        runLines r.1 r.2 := by
  induction displays generalizing lines d m with
  | nil =>
    rw [List.foldl_nil, flush_pending, runs_replicate_append (by simp), runs,
      List.flatMap_singleton]
  | cons e rest ih =>
    rw [List.foldl_cons, push]
    by_cases he : d = e
    · -- the run goes on
      subst he
      have hrun : List.replicate (m + 1) d ++ d :: rest = List.replicate (m + 2) d ++ rest := by
        rw [List.append_cons, ← List.replicate_succ']
      rw [if_pos rfl, hrun]
      exact ih lines d (m + 1)
    · -- the run is over, and the next one begins
      have hne : d ∉ (e :: rest).head? := fun hd => he (Option.some.inj hd).symm
      rw [if_neg fun hd => he (Option.some.inj hd), flush_pending, ih, runs_replicate_append hne,
        List.flatMap_cons, List.append_assoc]
      rfl

end Collapse

/-- **The lines of items behind the lines that are there**, written in one pass. -/
def collapse (lines : List String) (items : List Item) : List String :=
  ((items.map Item.display).foldl Collapse.push { lines }).flush

/-- **One pass writes the lines of the runs** behind the lines that are there. -/
theorem collapse_eq (lines : List String) (items : List Item) :
    collapse lines items = lines ++ itemLines items := by
  unfold collapse itemLines
  cases items.map Item.display with
  | nil => simp [Collapse.flush, runs]
  | cons d rest => exact Collapse.flush_foldl_push rest lines d 0

/-! ## Expanding -/

/-- The lines that collapsed lines stand for, behind a line. -/
def expandBehind (last : String) : List String → List String
  | [] => []
  | line :: rest =>
    match more? line with
    | some n => List.replicate n last ++ expandBehind last rest
    | none => line :: expandBehind line rest

/-- **The lines that collapsed lines stand for.** -/
def expand (lines : List String) : List String :=
  expandBehind "" lines

theorem expandBehind_moreLine (last : String) (n : Nat) (rest : List String) :
    expandBehind last (moreLine n :: rest) = List.replicate n last ++ expandBehind last rest := by
  rw [expandBehind, more?_eq_some_iff.mpr rfl]

theorem expandBehind_of_more? {line : String} (h : more? line = none) (last : String)
    (rest : List String) : expandBehind last (line :: rest) = line :: expandBehind line rest := by
  rw [expandBehind, h]

/-- The lines of a run are expanded to one line for each item. -/
theorem expandBehind_runLines {d : String} {m : Nat} (hd : more? (itemLine d) = none) (hm : 0 < m)
    (last : String) (rest : List String) :
    expandBehind last (runLines d m ++ rest) =
      List.replicate m (itemLine d) ++ expandBehind (itemLine d) rest := by
  obtain ⟨n, rfl⟩ : ∃ n, m = n + 1 := Nat.exists_eq_add_one.mpr hm
  rw [runLines_eq, List.cons_append, expandBehind_of_more? hd, List.replicate_succ,
    List.cons_append]
  cases n with
  | zero => rfl
  | succ n =>
    rw [if_pos (by omega), List.singleton_append, Nat.add_sub_cancel, expandBehind_moreLine]

theorem expandBehind_flatMap_runLines {rs : List (String × Nat)}
    (hlines : ∀ r ∈ rs, more? (itemLine r.1) = none) (hpos : ∀ r ∈ rs, 0 < r.2) (last : String) :
    expandBehind last (rs.flatMap fun r => runLines r.1 r.2) = (unfoldRuns rs).map itemLine := by
  induction rs generalizing last with
  | nil => rfl
  | cons r rest ih =>
    obtain ⟨hline, hlines⟩ := List.forall_mem_cons.mp hlines
    obtain ⟨hm, hpos⟩ := List.forall_mem_cons.mp hpos
    rw [List.flatMap_cons, expandBehind_runLines hline hm, ih hlines hpos, unfoldRuns_cons,
      List.map_append, List.map_replicate]

/-- The runs of items are of ways that items look. -/
theorem mem_of_mem_runs {α : Type} [DecidableEq α] {as : List α} {r : α × Nat} (hr : r ∈ runs as) :
    r.1 ∈ as := by
  rw [← unfoldRuns_runs as]
  refine List.mem_flatMap.mpr ⟨r, hr, List.mem_replicate.mpr ⟨?_, rfl⟩⟩
  exact Nat.ne_of_gt (runs_pos hr)

theorem more?_of_mem_runs {items : List Item} {r : String × Nat}
    (hr : r ∈ runs (items.map Item.display)) : more? (itemLine r.1) = none := by
  obtain ⟨item, -, hitem⟩ := List.mem_map.mp (mem_of_mem_runs hr)
  rw [← hitem]
  exact more?_itemLine item

/-- **Collapsed lines are expanded to those of all items**, in order. -/
theorem expand_itemLines (items : List Item) :
    expand (itemLines items) = items.map fun item => itemLine item.display := by
  rw [expand, itemLines]
  refine (expandBehind_flatMap_runLines (fun r => more?_of_mem_runs) (fun r => runs_pos)
    "").trans ?_
  rw [unfoldRuns_runs, List.map_map]
  rfl

/-! ## Neighbouring lines -/

/-- **The lines that do not stand for more** are one for each run. -/
theorem filter_itemLines_more? (items : List Item) :
    ((itemLines items).filter fun line => (more? line).isNone) =
      (runs (items.map Item.display)).map fun r => itemLine r.1 := by
  have hrun : ∀ r ∈ runs (items.map Item.display),
      ((runLines r.1 r.2).filter fun line => (more? line).isNone) = [itemLine r.1] := by
    intro r hr
    have hmore : more? (moreLine (r.2 - 1)) = some (r.2 - 1) := more?_eq_some_iff.mpr rfl
    rw [runLines_eq, List.filter_cons_of_pos (by rw [more?_of_mem_runs hr]; rfl)]
    split
    · rw [List.filter_cons_of_neg (by simp [hmore]), List.filter_nil]
    · rfl
  rw [itemLines, List.filter_flatMap]
  exact (List.flatMap_congr hrun).trans List.map_eq_flatMap.symm

/-- The last line of a run differs from the first line of a run of other items. -/
theorem ne_of_getLast?_runLines {d e line : String} {m : Nat} (hne : d ≠ e)
    (he : more? (itemLine e) = none) (hline : line ∈ (runLines d m).getLast?) :
    line ≠ itemLine e := by
  rw [runLines_eq] at hline
  split at hline
  · -- a line that stands for more is that of no item
    obtain rfl : moreLine (m - 1) = line := Option.some.inj hline
    intro heq
    rw [← heq, more?_eq_some_iff.mpr rfl] at he
    exact nomatch he
  · obtain rfl : itemLine d = line := Option.some.inj hline
    exact fun heq => hne (itemLine_inj.mp heq)

/-- **No line of items is followed by an equal one.** -/
theorem isChain_flatMap_runLines {rs : List (String × Nat)}
    (hlines : ∀ r ∈ rs, more? (itemLine r.1) = none)
    (hapart : rs.IsChain fun r s => r.1 ≠ s.1) :
    (rs.flatMap fun r => runLines r.1 r.2).IsChain (· ≠ ·) := by
  induction rs with
  | nil => exact .nil
  | cons r rest ih =>
    obtain ⟨hline, hlines⟩ := List.forall_mem_cons.mp hlines
    obtain ⟨hfirst, hlater⟩ := List.isChain_cons.mp hapart
    rw [List.flatMap_cons]
    refine List.IsChain.append ?_ (ih hlines hlater) ?_
    · -- within a run only the line that stands for more follows
      rw [runLines_eq]
      split
      · refine .cons_cons (fun heq => ?_) (.singleton _)
        rw [heq, more?_eq_some_iff.mpr rfl] at hline
        exact nomatch hline
      · exact .singleton _
    · intro line hlast next hnext
      cases rest with
      | nil => exact nomatch hnext
      | cons s rest =>
        obtain rfl : itemLine s.1 = next := Option.some.inj hnext
        exact ne_of_getLast?_runLines (hfirst s rfl) (hlines s List.mem_cons_self) hlast

/-- **Collapsing is lossless.** One pass over items leaves the lines that are there and writes, for
each run of items that look alike, as long as it can be, the line of such an item and, exactly if
there are more of them, a line that says how many. Expanded, these are the lines of all items in
order. No line is followed by an equal one, nor is a line of an item followed by an equal one when
the others are left out. -/
theorem itemLines_lossless (lines : List String) (items : List Item) :
    collapse lines items = lines ++ itemLines items ∧
      (∃! rs, IsRuns (items.map Item.display) rs) ∧
      (∃ rs, IsRuns (items.map Item.display) rs ∧
        itemLines items = rs.flatMap fun (display, m) =>
          itemLine display :: if 1 < m then [moreLine (m - 1)] else []) ∧
      expand (itemLines items) = items.map (fun item => itemLine item.display) ∧
      (itemLines items).IsChain (· ≠ ·) ∧
      ((itemLines items).filter fun line => (more? line).isNone).IsChain (· ≠ ·) := by
  have hruns : IsRuns (items.map Item.display) (runs (items.map Item.display)) :=
    isRuns_iff.mpr rfl
  refine ⟨collapse_eq lines items, ⟨_, hruns, fun rs => isRuns_iff.mp⟩, ⟨_, hruns, rfl⟩,
    expand_itemLines items, ?_, ?_⟩
  · exact isChain_flatMap_runLines (fun r => more?_of_mem_runs) hruns.apart
  · rw [filter_itemLines_more?, List.isChain_map]
    exact hruns.apart.imp fun r s hne => mt itemLine_inj.mp hne

end Report

end Earley
