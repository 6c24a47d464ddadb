import Earley.Chart.Trail
import Earley.Proofs.Chart.Orderly
import Mathlib.Data.List.Chain
import Mathlib.Data.List.Perm.Subperm
import Mathlib.Order.Bounds.Defs

/-!
# Where trails lead

A trail goes from an item to the first one that asked for it and on, over the columns back to the
beginning of the input. It is a walk that ends by itself, in front of a place that it has seen or at
an item that nobody asked for. In a chart in order the only such item is one for the start, and
whatever else stands in the chart was asked for in the column where it begins.

## Main definitions

* `Chart.Walk`: a walk along the items that asked, without a bound on its steps
* `Chart.FirstAsker`, `Chart.Unasked`: the first item that waits for one, and that there is none
* `Chart.TracesBack`: the places of a trail

## Main results

* `Chart.length_le_size`: different places of items are no more than there are items
* `Chart.exists_walk_of_seen`: a walk from any place comes to an end
* `Chart.Walk.trailFrom_eq`: a trail shows the items of a walk
* `Chart.Grown.exists_tracesBack`: the trail of every item leads back
-/

namespace Earley.Chart

variable {g : Grammar} {chart : Chart} {place asker : Place} {item : Item} {steps k : Nat}
  {seen places : List Place} {columns : List Column} {column : Column}

/-! ## Places -/

/-- The places of the items of a row of columns, the latest column first. -/
def placesOf : List Column → List Place
  | [] => []
  | column :: older => (List.range column.size).map (Place.mk older.length) ++ placesOf older

theorem length_placesOf (columns : List Column) :
    (placesOf columns).length = columns.foldl (fun n column => n + column.size) 0 := by
  have hadd : ∀ (columns : List Column) (n : Nat),
      columns.foldl (fun n column => n + column.size) n = n + (placesOf columns).length := by
    intro columns
    induction columns with
    | nil => exact fun n => rfl
    | cons column older ih =>
      intro n
      rw [List.foldl_cons, ih, placesOf, List.length_append, List.length_map, List.length_range,
        Nat.add_assoc]
  rw [hadd, Nat.zero_add]

theorem mem_placesOf : place ∈ placesOf columns ↔
    ∃ column, columns.reverse[place.column]? = some column ∧ place.entry < column.size := by
  induction columns with
  | nil => simp [placesOf]
  | cons column older ih =>
    obtain ⟨k, entry⟩ := place
    rw [placesOf, List.mem_append, ih, List.reverse_cons, List.getElem?_append, List.length_reverse]
    constructor
    · rintro (hlast | ⟨found, hfound, hentry⟩)
      · obtain ⟨_, hentry, heq⟩ := List.mem_map.mp hlast
        obtain ⟨rfl, rfl⟩ := Place.mk.inj heq
        exact ⟨column, by simp, List.mem_range.mp hentry⟩
      · have hk : k < older.length := by simpa using (List.getElem?_eq_some_iff.mp hfound).1
        exact ⟨found, by rwa [if_pos hk], hentry⟩
    · rintro ⟨found, hfound, hentry⟩
      split at hfound
      · exact .inr ⟨found, hfound, hentry⟩
      · next hk =>
        obtain ⟨hlast, rfl⟩ := List.getElem?_eq_some_iff.mp hfound
        obtain rfl : k = older.length := by
          have hlast : k - older.length < 1 := hlast
          have hk : ¬k < older.length := hk
          omega
        refine .inl (List.mem_map.mpr ⟨entry, List.mem_range.mpr ?_, rfl⟩)
        simpa using hentry

/-- The columns of a chart by their numbers. -/
theorem column?_eq_getElem? (chart : Chart) (k : Nat) :
    chart.column? k = (chart.head :: chart.older).reverse[k]? := by
  rw [column?]
  split
  · next hk =>
    have hlt : k < (chart.head :: chart.older).length := by
      rw [List.length_cons]
      exact Nat.lt_succ_of_le hk
    rw [List.getElem?_reverse hlt]
    rfl
  · next hk =>
    refine (List.getElem?_eq_none ?_).symm
    rw [List.length_reverse, List.length_cons]
    exact Nat.lt_of_not_le hk

/-- An item at a place stands in the column of that number. -/
theorem item?_eq_some_iff : chart.item? place = some item ↔
    ∃ column, chart.column? place.column = some column ∧
      column.items[place.entry]? = some item :=
  Option.bind_eq_some_iff

theorem item?_of_column? (h : chart.column? k = some column) (entry : Nat) :
    chart.item? ⟨k, entry⟩ = column.items[entry]? := by
  rw [item?, h, Option.bind_some]

/-- **Different places of items** are no more than there are items in the chart. -/
theorem length_le_size (hnodup : places.Nodup)
    (hitems : ∀ place ∈ places, ∃ item, chart.item? place = some item) :
    places.length ≤ chart.size := by
  -- they are among the places of all items, of which there are as many as items
  have hsubset : places ⊆ placesOf (chart.head :: chart.older) := by
    intro place hplace
    obtain ⟨item, hitem⟩ := hitems place hplace
    obtain ⟨column, hcolumn, hentry⟩ := item?_eq_some_iff.mp hitem
    rw [column?_eq_getElem?] at hcolumn
    exact mem_placesOf.mpr ⟨column, hcolumn, (Array.getElem?_eq_some_iff.mp hentry).1⟩
  have hlength := (hnodup.subperm hsubset).length_le
  rwa [length_placesOf] at hlength

/-! ## Walks -/

/-- **A walk from a place on**, along the items that asked. It ends in front of a place that it has
seen, or at an item that nobody asked for. -/
inductive Walk (chart : Chart) : (seen : List Place) → Place → (places : List Place) → Prop
  | seen {seen : List Place} {place : Place} (h : place ∈ seen) : Walk chart seen place []
  | unasked {seen : List Place} {place : Place} {item : Item} (hnew : place ∉ seen)
      (hitem : chart.item? place = some item) (hasker : chart.asker? place item = none) :
      Walk chart seen place [place]
  | asked {seen places : List Place} {place asker : Place} {item : Item} (hnew : place ∉ seen)
      (hitem : chart.item? place = some item) (hasker : chart.asker? place item = some asker)
      (h : Walk chart (place :: seen) asker places) : Walk chart seen place (place :: places)

/-- **A trail shows the items of a walk**, given as many steps as that takes. -/
theorem Walk.trailFrom_eq (h : chart.Walk seen place places) (hsteps : places.length ≤ steps) :
    (chart.trailFrom steps seen place).map some = places.map chart.item? := by
  induction h generalizing steps with
  | seen hseen => cases steps <;> simp [trailFrom, hseen]
  | unasked hnew hitem hasker =>
    obtain ⟨steps, rfl⟩ := Nat.exists_eq_add_one.mpr hsteps
    simp [trailFrom, hnew, hitem, hasker]
  | asked hnew hitem hasker _ ih =>
    obtain ⟨steps, rfl⟩ := Nat.exists_eq_add_one.mpr (Nat.lt_of_lt_of_le (Nat.succ_pos _) hsteps)
    simp [trailFrom, hnew, hitem, hasker, ih (Nat.le_of_succ_le_succ hsteps)]

/-- There are items at all places of a walk. -/
theorem Walk.exists_item (h : chart.Walk seen place places) :
    ∀ other ∈ places, ∃ item, chart.item? other = some item := by
  induction h with
  | seen _ => simp
  | unasked _ hitem _ => simp [hitem]
  | asked _ hitem _ _ ih => simpa [hitem] using ih

/-- **A walk comes to no place twice.** -/
theorem Walk.nodup (h : chart.Walk seen place places) :
    places.Nodup ∧ ∀ other ∈ places, other ∉ seen := by
  induction h with
  | seen _ => simp
  | unasked hnew _ _ => simp [hnew]
  | asked hnew _ _ _ ih =>
    refine ⟨List.nodup_cons.mpr ⟨fun hmem => ?_, ih.1⟩, ?_⟩
    · exact ih.2 _ hmem List.mem_cons_self
    · intro other hother
      rcases List.mem_cons.mp hother with rfl | hmem
      · exact hnew
      · exact fun hseen => ih.2 other hmem (List.mem_cons_of_mem _ hseen)

/-- A walk begins at its place, unless that was seen. -/
theorem Walk.head? (h : chart.Walk seen place places) :
    (place ∈ seen ∧ places = []) ∨ places.head? = some place := by
  cases h with
  | seen hseen => exact .inl ⟨hseen, rfl⟩
  | unasked _ _ _ => exact .inr rfl
  | asked _ _ _ _ => exact .inr rfl

/-- A walk from a place that was seen is over. -/
theorem Walk.eq_nil (h : chart.Walk seen place places) (hseen : place ∈ seen) : places = [] := by
  cases h with
  | seen _ => rfl
  | unasked hnew _ _ => exact absurd hseen hnew
  | asked hnew _ _ _ => exact absurd hseen hnew

/-- **Each place of a walk** is followed by that of the item that asked. -/
theorem Walk.isChain (h : chart.Walk seen place places) :
    places.IsChain fun a b => ∃ item, chart.item? a = some item ∧ chart.asker? a item = some b := by
  induction h with
  | seen _ => exact .nil
  | unasked _ _ _ => exact .singleton _
  | asked _ hitem hasker h ih =>
    refine List.isChain_cons.mpr ⟨fun next hnext => ?_, ih⟩
    -- the walk goes on from the item that asked, if it goes on
    rcases h.head? with ⟨-, rfl⟩ | hhead
    · exact nomatch hnext
    · obtain rfl := Option.some.inj (hhead.symm.trans hnext)
      exact ⟨_, hitem, hasker⟩

/-- **A walk ends** at an item that nobody asked for, or one that asked was seen before. -/
theorem Walk.exists_getLast? (h : chart.Walk seen place places) (hnew : place ∉ seen) :
    ∃ last item, places.getLast? = some last ∧ chart.item? last = some item ∧
      ∀ asker, chart.asker? last item = some asker → asker ∈ seen ∨ asker ∈ places := by
  induction h with
  | seen hseen => exact absurd hseen hnew
  | @unasked _ place item _ hitem hasker => exact ⟨place, item, rfl, hitem, by simp [hasker]⟩
  | @asked seen places place asker item _ hitem hasker h ih =>
    -- what was seen on the way is on the walk itself
    have hback : ∀ other, other ∈ place :: seen ∨ other ∈ places →
        other ∈ seen ∨ other ∈ place :: places := by
      simp only [List.mem_cons]
      tauto
    by_cases hseen : asker ∈ place :: seen
    · obtain rfl := h.eq_nil hseen
      refine ⟨place, item, rfl, hitem, fun other hother => hback other (.inl ?_)⟩
      rwa [← Option.some.inj (hasker.symm.trans hother)]
    · obtain ⟨last, final, hlast, hfinal, hshown⟩ := ih hseen
      refine ⟨last, final, by simp [List.getLast?_cons, hlast], hfinal, fun other hother => ?_⟩
      exact hback other (hshown other hother)

/-- **A walk from any place comes to an end**, if the items that asked are in the chart: it cannot see
more places than there are items. -/
theorem exists_walk_of_seen
    (hclosed : ∀ place item asker, chart.item? place = some item → chart.asker? place item = some asker →
      ∃ other, chart.item? asker = some other)
    (hseen : seen.Nodup) (hitems : ∀ other ∈ seen, ∃ item, chart.item? other = some item)
    (hitem : ∃ item, chart.item? place = some item) (hsteps : chart.size ≤ seen.length + steps) :
    ∃ places, chart.Walk seen place places := by
  induction steps generalizing seen place with
  | zero =>
    -- all places have been seen
    refine ⟨[], .seen ?_⟩
    by_contra hnew
    have hle := length_le_size (List.nodup_cons.mpr ⟨hnew, hseen⟩)
      (List.forall_mem_cons.mpr ⟨hitem, hitems⟩)
    rw [List.length_cons] at hle
    omega
  | succ steps ih =>
    by_cases hnew : place ∈ seen
    · exact ⟨[], .seen hnew⟩
    · obtain ⟨item, hitem⟩ := hitem
      cases hasker : chart.asker? place item with
      | none => exact ⟨[place], .unasked hnew hitem hasker⟩
      | some asker =>
        obtain ⟨places, hwalk⟩ := ih (List.nodup_cons.mpr ⟨hnew, hseen⟩)
          (List.forall_mem_cons.mpr ⟨⟨item, hitem⟩, hitems⟩) (hclosed _ _ _ hitem hasker)
          (by rw [List.length_cons]; omega)
        exact ⟨place :: places, .asked hnew hitem hasker hwalk⟩

/-! ## Items that ask -/

/-- **The first item that waits for one**: of the items in front of its name, in the column where it
begins, the one at the least place. -/
def FirstAsker (chart : Chart) (item : Item) (asker : Place) : Prop :=
  asker.column = item.origin ∧
    IsLeast {entry | ∃ waiting, chart.item? ⟨item.origin, entry⟩ = some waiting ∧
      waiting.next? = some (.nonterminal item.name)} asker.entry

/-- **Nobody asked** for an item: it is one for the start from the beginning of the input on, and no
item of column 0 waits for that. -/
def Unasked (g : Grammar) (chart : Chart) (item : Item) : Prop :=
  item.name = g.start ∧ item.origin = 0 ∧
    ∀ entry waiting, chart.item? ⟨0, entry⟩ = some waiting →
      waiting.next? ≠ some (.nonterminal g.start)

/-- The places of a trail, if it leads **back from a place** to the first item that asked, and on. -/
structure TracesBack (g : Grammar) (chart : Chart) (place : Place) (places : List Place) : Prop where
  /-- The trail shows the items at these places. -/
  items : (chart.trail place).map some = places.map chart.item?
  /-- It ends by itself: further steps would add nothing. -/
  ends : ∀ steps, chart.size ≤ steps → chart.trailFrom steps [] place = chart.trail place
  head? : places.head? = some place
  /-- It comes to no place twice. -/
  nodup : places.Nodup
  /-- Each item is followed by the first that waits for it. -/
  isChain : places.IsChain fun a b => ∃ item, chart.item? a = some item ∧ chart.FirstAsker item b
  /-- It ends at an item that nobody asked for, or the first that did has been shown. -/
  last : ∃ last item, places.getLast? = some last ∧ chart.item? last = some item ∧
    (chart.Unasked g item ∨ ∃ asker ∈ places, chart.FirstAsker item asker)

/-- **Whatever stands in a chart is asked for** in the column where it begins, unless it is for the
start. -/
theorem Reads.asked {input : List Token} (h : Reads g input chart)
    (hcolumn : chart.column? k = some column) (hitem : item ∈ column.items) :
    ∃ home, chart.column? item.origin = some home ∧
      (home.wanted.get item.name ≠ [] ∨ (item.origin = 0 ∧ item.name = g.start)) := by
  have hle := (h.orderly hcolumn).origin_le item hitem
  obtain ⟨home, hhome⟩ := exists_column? (Nat.le_trans hle (le_index_of_column? hcolumn))
  obtain ⟨stems, htraces, -, hmem⟩ := h.faithful k column hcolumn
  obtain ⟨s, hs, rfl⟩ := htraces.mem_items.mp hitem
  refine ⟨home, hhome, ?_⟩
  -- the stem that asks is among those of the column where the item begins
  obtain ⟨askers, hask, -, hmemask⟩ := h.faithful _ home hhome
  refine (hask.contains_iff s.name).mp ((hask.known s.name).mpr ?_)
  rcases ((hmem s).mp hs).asked with hstart | ⟨w, hw, hnext⟩
  · exact .inl hstart
  · exact .inr ⟨w, (hmemask w).mpr hw, Stem.wants_iff.mpr hnext⟩

theorem Grown.asked (h : Grown g chart) (hcolumn : chart.column? k = some column)
    (hitem : item ∈ column.items) :
    ∃ home, chart.column? item.origin = some home ∧
      (home.wanted.get item.name ≠ [] ∨ (item.origin = 0 ∧ item.name = g.start)) := by
  induction h with
  | reads h => exact h.asked hcolumn hitem
  | @blank chart h ih =>
    rcases cases_of_column? rfl hcolumn with ⟨-, hbefore⟩ | ⟨-, rfl⟩
    · obtain ⟨home, hhome, hasked⟩ := ih hbefore
      exact ⟨home, by rwa [column?_of_older rfl (le_index_of_column? hhome)], hasked⟩
    · -- there is no item in the empty column
      exact absurd hitem (Array.not_mem_empty item)

/-- **The item that a trail goes on to** is the first that waits for the one before. -/
theorem Grown.asker?_cases (h : Grown g chart) (hitem : chart.item? place = some item) :
    (chart.asker? place item = none ∧ chart.Unasked g item) ∨
      ∃ asker, chart.asker? place item = some asker ∧ chart.FirstAsker item asker := by
  obtain ⟨column, hcolumn, hentry⟩ := item?_eq_some_iff.mp hitem
  obtain ⟨home, hhome, hasked⟩ := h.asked hcolumn (Array.mem_of_getElem? hentry)
  -- the item goes back to the column where it begins, which may be its own
  have hback : item.home.getD place.column = item.origin :=
    (h.orderly hcolumn).home_getD (Array.mem_of_getElem? hentry)
  have hasker : chart.asker? place item =
      (home.wanted.get item.name).head?.map (Place.mk item.origin) := by
    rw [asker?, hback, hhome, Option.bind_some]
  -- the column where the item begins lists the ones that wait, so the first of the list is the first
  obtain ⟨hsorted, hlisted⟩ := (h.orderly hhome).wanted item.name
  rw [hasker]
  cases hwaiting : home.wanted.get item.name with
  | nil =>
    obtain ⟨horigin, hname⟩ := hasked.resolve_left (not_not_intro hwaiting)
    refine .inl ⟨rfl, hname, horigin, fun entry waiting hat hnext => ?_⟩
    rw [← horigin, item?_of_column? hhome] at hat
    have hmem := (hlisted entry).mpr ⟨waiting, hat, hname.symm ▸ hnext⟩
    rw [hwaiting] at hmem
    exact nomatch hmem
  | cons first rest =>
    simp only [item?_of_column? hhome, FirstAsker, ← hlisted]
    rw [hwaiting] at hsorted ⊢
    refine .inr ⟨⟨item.origin, first⟩, rfl, rfl, List.mem_cons_self, fun entry hmem => ?_⟩
    rcases List.mem_cons.mp hmem with rfl | hlater
    · exact Nat.le_refl _
    · exact Nat.le_of_lt (List.rel_of_pairwise_cons hsorted hlater)

/-- The first item that waits for one is in the chart. -/
theorem FirstAsker.exists_item (h : chart.FirstAsker item asker) :
    ∃ waiting, chart.item? asker = some waiting := by
  obtain ⟨column, entry⟩ := asker
  obtain ⟨rfl, ⟨waiting, hwaiting, -⟩, -⟩ := h
  exact ⟨waiting, hwaiting⟩

/-- **The trail of every item leads back**, over items that were asked for one by the other. -/
theorem Grown.exists_tracesBack (h : Grown g chart) (hitem : chart.item? place = some item) :
    ∃ places, TracesBack g chart place places := by
  -- what the walk follows is the first item that waits
  have hfirst : ∀ {place item asker}, chart.item? place = some item →
      chart.asker? place item = some asker → chart.FirstAsker item asker := by
    intro place item asker hitem hasker
    rcases h.asker?_cases hitem with ⟨hnone, -⟩ | ⟨other, hother, hfirst⟩
    · exact absurd (hnone.symm.trans hasker) (by simp)
    · obtain rfl := Option.some.inj (hother.symm.trans hasker)
      exact hfirst
  obtain ⟨places, hwalk⟩ : ∃ places, chart.Walk [] place places :=
    exists_walk_of_seen (fun _ _ _ hitem hasker => (hfirst hitem hasker).exists_item)
      List.nodup_nil (by simp) ⟨item, hitem⟩ (Nat.le_add_left chart.size [].length)
  -- a walk is no longer than the bound that a trail gets, so the trail is not cut short
  have hlength : places.length ≤ chart.size := length_le_size hwalk.nodup.1 hwalk.exists_item
  have htrail : (chart.trail place).map some = places.map chart.item? := hwalk.trailFrom_eq hlength
  refine ⟨places, htrail, fun steps hsteps => ?_, ?_, hwalk.nodup.1, ?_, ?_⟩
  · have hlonger := hwalk.trailFrom_eq (Nat.le_trans hlength hsteps)
    exact List.map_injective_iff.mpr (fun _ _ => Option.some.inj) (hlonger.trans htrail.symm)
  · exact hwalk.head?.resolve_left (by simp)
  · refine hwalk.isChain.imp fun a b => ?_
    rintro ⟨item, hitem, hasker⟩
    exact ⟨item, hitem, hfirst hitem hasker⟩
  · obtain ⟨last, final, hlast, hfinal, hback⟩ := hwalk.exists_getLast? (by simp)
    refine ⟨last, final, hlast, hfinal, ?_⟩
    rcases h.asker?_cases hfinal with ⟨-, hunasked⟩ | ⟨asker, hasker, hfirst⟩
    · exact .inl hunasked
    · exact .inr ⟨asker, (hback asker hasker).resolve_left (by simp), hfirst⟩

end Earley.Chart
