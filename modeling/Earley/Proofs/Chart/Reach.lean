import Earley.Proofs.Chart.Visiting

/-!
# Rules within reach

A name is within reach if it is the start or stands in a rule of a name within reach. The rules of a
column come in for the start and for the nonterminals that items ask for, and an item keeps its rule
when its dot moves. So all nonterminals in the rules of a chart are within reach, and the alternatives
of other names are never looked up: grammars that have one start, and the same alternatives for the
names within reach, have the same charts.

## Main definitions

* `Grammar.Reaches`: the names within reach
* `Grammar.Agrees`: grammars that agree within reach
* `Item.InReach`, `Column.InReach`, `Chart.InReach`: all nonterminals are within reach

## Main results

* `Column.InReach.visit`: a visit stays within reach
* `Column.InReach.closeFrom_eq`: grammars that agree within reach close a column alike
* `Chart.inReach_initial`, `Chart.InReach.shift`: charts stay within reach
* `Chart.initial_eq`, `Chart.InReach.shift_eq`: grammars that agree within reach have the same charts
-/

namespace Earley

/-- **The names within reach**: the start, and the nonterminals in the rules of such names. -/
inductive Grammar.Reaches (g : Grammar) : String → Prop
  | start : Reaches g g.start
  | inner {name inner : String} {rule : Rule} (h : Reaches g name) (hrule : rule ∈ g.rulesFor name)
      (hsymbol : .nonterminal inner ∈ rule.symbols) : Reaches g inner

/-- **Grammars that agree within reach**: they have one start and, for each name within reach, the
same alternatives in the same order. -/
structure Grammar.Agrees (g g' : Grammar) : Prop where
  start : g'.start = g.start
  rulesFor : ∀ name, g.Reaches name → g'.rulesFor name = g.rulesFor name

/-- The nonterminals in the rule of an item are within reach. -/
def Item.InReach (g : Grammar) (item : Item) : Prop :=
  ∀ name, .nonterminal name ∈ item.rule.symbols → g.Reaches name

/-- The nonterminals in the rules of a column are within reach. -/
def Column.InReach (g : Grammar) (column : Column) : Prop :=
  ∀ item ∈ column.items, item.InReach g

/-- The nonterminals in the rules of a chart are within reach. -/
def Chart.InReach (g : Grammar) (chart : Chart) : Prop :=
  ∀ column ∈ chart.head :: chart.older, column.InReach g

variable {g g' : Grammar} {earlier : Array Column} {column closed : Column} {chart next : Chart}
  {item : Item} {fuel i : Nat}

theorem Item.inReach_predicted {name : String} {rule : Rule} (h : g.Reaches name)
    (hrule : rule ∈ g.rulesFor name) (origin : Nat) : (Item.predicted rule origin).InReach g :=
  fun _ hsymbol => h.inner hrule hsymbol

/-- What an item asks for is within reach. -/
theorem Item.InReach.reaches {name : String} (h : item.InReach g)
    (hnext : item.next? = some (.nonterminal name)) : g.Reaches name :=
  h name (List.mem_of_getElem? hnext)

/-! ## Columns -/

namespace Column.InReach

theorem append (h : column.InReach g) {news : List Item} (hnews : ∀ x ∈ news, x.InReach g) :
    (column.append news).InReach g := by
  intro x hx
  have hcases : x ∈ column.items ∨ x ∈ news := by
    rw [← Array.mem_toList_iff] at hx
    simpa [Column.append] using hx
  exact hcases.elim (h x) (hnews x)

theorem settle (h : column.InReach g) (i : Nat) (outcome : Outcome) :
    (column.settle i outcome).InReach g := by
  intro x hx
  obtain ⟨j, hj⟩ := Array.mem_iff_getElem?.mp hx
  -- the item has the rule of the one that was there
  have hbare := Column.getElem?_unsettled hj
  rw [Column.unsettled_settle] at hbare
  obtain ⟨old, hold, hsame⟩ := Column.exists_of_getElem?_unsettled hbare
  have hrule : old.rule = x.rule := (congrArg Item.rule hsame :)
  rw [Item.InReach, ← hrule]
  exact h old (Array.mem_of_getElem? hold)

theorem itemsAt (h : column.InReach g) (places : List Nat) :
    ∀ x ∈ column.itemsAt places, x.InReach g := by
  intro x hx
  obtain ⟨i, -, hi⟩ := List.mem_filterMap.mp hx
  exact h x (Array.mem_of_getElem? hi)

/-- What a finished item moves on, from whichever column, keeps its rule. -/
theorem moved (h : column.InReach g) (hearlier : ∀ c ∈ earlier, c.InReach g) (item : Item) (v : Value) :
    ∀ x ∈ column.moved earlier item v, x.InReach g := by
  intro x hx
  obtain ⟨home, hhome, left, hleft, hrule, -⟩ := Column.exists_of_mem_moved hx
  have hreach : home.InReach g := hhome.elim (fun heq => heq ▸ h) (hearlier home)
  rw [Item.InReach, hrule]
  exact hreach.itemsAt _ left hleft

theorem finish (h : column.InReach g) (hearlier : ∀ c ∈ earlier, c.InReach g) (i : Nat)
    (item : Item) : (column.finish earlier i item).InReach g := by
  unfold Column.finish
  split
  · exact h.settle i _
  · split
    · exact h.settle i _
    · next v _ =>
      have hmoved := h.moved hearlier item v
      have hnext := (h.settle i (.value v)).append hmoved
      dsimp only
      split
      · exact hnext
      · exact hnext

theorem ask (h : column.InReach g) (hitem : item.InReach g) {name : String}
    (hname : g.Reaches name) (i : Nat) : (column.ask g earlier i item name).InReach g := by
  have hawait : (column.await name i).InReach g := h
  refine hawait.append fun x hx => ?_
  split at hx
  · obtain ⟨done, -, rfl⟩ := List.mem_map.mp hx
    exact hitem
  · obtain ⟨rule, hrule, rfl⟩ := List.mem_map.mp hx
    exact Item.inReach_predicted hname hrule _

/-- **A visit stays within reach.** -/
theorem visit (h : column.InReach g) (hearlier : ∀ c ∈ earlier, c.InReach g) (i : Nat) :
    (column.visit g earlier i).InReach g := by
  unfold Column.visit
  split
  · exact h
  · next item hitem =>
    have hreach := h item (Array.mem_of_getElem? hitem)
    split
    · exact h.finish hearlier i item
    · next name hnext => exact h.ask hreach (hreach.reaches hnext) i
    · exact h

/-- **A visit looks up no rules but those of names within reach.** -/
theorem visit_eq (hagrees : g.Agrees g') (h : column.InReach g) (earlier : Array Column) (i : Nat) :
    column.visit g' earlier i = column.visit g earlier i := by
  unfold Column.visit
  cases hitem : column.items[i]? with
  | none => rfl
  | some item =>
    have hreach := h item (Array.mem_of_getElem? hitem)
    dsimp only
    split
    · rfl
    · next name hnext => rw [Column.ask, Column.ask, hagrees.rulesFor name (hreach.reaches hnext)]
    · rfl

theorem closeFrom (h : column.InReach g) (hearlier : ∀ c ∈ earlier, c.InReach g)
    (hclose : Column.closeFrom g earlier fuel i column = some closed) : closed.InReach g := by
  obtain ⟨-, -, hclosed⟩ := Column.closeFrom_induction (P := fun _ column => column.InReach g)
    (fun i _ _ _ hcolumn => hcolumn.visit hearlier i) h hclose
  exact hclosed

/-- **Grammars that agree within reach close a column alike.** -/
theorem closeFrom_eq (hagrees : g.Agrees g') (h : column.InReach g)
    (hearlier : ∀ c ∈ earlier, c.InReach g) (fuel i : Nat) :
    Column.closeFrom g' earlier fuel i column = Column.closeFrom g earlier fuel i column := by
  induction fuel generalizing i column with
  | zero => rfl
  | succ fuel ih =>
    rw [Column.closeFrom, Column.closeFrom, visit_eq hagrees h, ih (h.visit hearlier i)]

end Column.InReach

/-! ## Charts -/

namespace Chart

theorem InReach.of_earlier (h : chart.InReach g) : ∀ c ∈ chart.earlier, c.InReach g := by
  intro c hc
  rw [Chart.earlier, Array.mem_reverse, List.mem_toArray] at hc
  exact h c (List.mem_cons_of_mem _ hc)

theorem InReach.close (h : chart.InReach g) (hclose : Chart.close g fuel chart = some next) :
    next.InReach g := by
  obtain ⟨head, hhead, rfl⟩ := Option.map_eq_some_iff.mp hclose
  obtain ⟨hcolumn, holder⟩ := List.forall_mem_cons.mp h
  exact List.forall_mem_cons.mpr ⟨hcolumn.closeFrom h.of_earlier hhead, holder⟩

theorem InReach.close_eq (hagrees : g.Agrees g') (h : chart.InReach g) (fuel : Nat) :
    Chart.close g' fuel chart = Chart.close g fuel chart := by
  have hcolumn := (List.forall_mem_cons.mp h).1
  rw [Chart.close, Chart.close, hcolumn.closeFrom_eq hagrees h.of_earlier]

theorem inReach_seed (g : Grammar) : (seed g).InReach g := by
  have hempty : Column.InReach g { wanted := ({} : Register).reserve g.start } := by
    simp [Column.InReach]
  refine List.forall_mem_singleton.mpr (hempty.append fun x hx => ?_)
  obtain ⟨rule, hrule, rfl⟩ := List.mem_map.mp hx
  exact Item.inReach_predicted .start hrule 0

/-- **The chart before any input is within reach.** -/
theorem inReach_initial (h : initial g fuel = some chart) : chart.InReach g :=
  (inReach_seed g).close h

/-- **Grammars that agree within reach have the same chart before any input.** -/
theorem initial_eq (hagrees : g.Agrees g') (fuel : Nat) : initial g' fuel = initial g fuel := by
  have hseed : seed g' = seed g := by
    rw [seed, seed, hagrees.start, hagrees.rulesFor g.start .start]
  rw [initial, initial, hseed, (inReach_seed g).close_eq hagrees]

/-- An empty column has no rules. -/
theorem InReach.blank (h : chart.InReach g) : chart.blank.InReach g :=
  List.forall_mem_cons.mpr ⟨by simp [Chart.blank, Column.InReach], h⟩

theorem InReach.scanned (h : chart.InReach g) (t : Token) :
    InReach g { head := Column.append {} (chart.scan t), older := chart.head :: chart.older } := by
  have hempty : Column.InReach g {} := by simp [Column.InReach]
  refine List.forall_mem_cons.mpr ⟨hempty.append fun x hx => ?_, h⟩
  -- the items that are moved over the token are those of the last column
  obtain ⟨item, hitem, hx⟩ := List.mem_filterMap.mp hx
  have hreach := (h chart.head (by simp)).itemsAt _ item (List.mem_reverse.mp hitem)
  split at hx
  · obtain rfl := Option.some.inj hx
    exact hreach
  · exact nomatch hx

/-- **A chart stays within reach** behind a further token. -/
theorem InReach.shift {t : Token} (h : chart.InReach g) (hshift : chart.shift g fuel t = some next) :
    next.InReach g :=
  (h.scanned t).close hshift

/-- **Grammars that agree within reach have the same charts** behind a further token. -/
theorem InReach.shift_eq (hagrees : g.Agrees g') (h : chart.InReach g) (fuel : Nat) (t : Token) :
    chart.shift g' fuel t = chart.shift g fuel t :=
  (h.scanned t).close_eq hagrees fuel

end Chart

end Earley
