/-!
# Registers

A register files numbers under names. Under each name they stay in the order in which they were
filed. A name can also be known without a number under it.

## Main definitions

* `Register`: numbers under names
* `Register.get`, `Register.contains`: what is filed under a name, and whether the name is known
* `Register.file`, `Register.reserve`: filing a number, and making a name known

## Main results

* `Register.get_file`, `Register.contains_file`: what filing changes
* `Register.get_reserve`, `Register.contains_reserve`: what reserving changes
-/

namespace Earley

/-- **Numbers filed under names.** The lists are kept with the latest number first. -/
structure Register where
  entries : List (String × List Nat) := []
deriving Repr

namespace Register

/-- What is filed under a name, in order, if the name is known. -/
def find? (r : Register) (name : String) : Option (List Nat) :=
  (r.entries.lookup name).map List.reverse

/-- **What is filed under a name**, in order. -/
def get (r : Register) (name : String) : List Nat :=
  (r.find? name).getD []

/-- Whether a name is known. -/
def contains (r : Register) (name : String) : Bool :=
  (r.entries.lookup name).isSome

/-- Adds a number under a name to a list of entries. -/
def fileIn (name : String) (n : Nat) : List (String × List Nat) → List (String × List Nat)
  | [] => [(name, [n])]
  | (other, ns) :: rest =>
    if name == other then (other, n :: ns) :: rest else (other, ns) :: fileIn name n rest

/-- **Files a number under a name.** -/
def file (r : Register) (name : String) (n : Nat) : Register :=
  { entries := fileIn name n r.entries }

/-- Makes a name known. -/
def reserve (r : Register) (name : String) : Register :=
  if r.contains name then r else { entries := r.entries ++ [(name, [])] }

theorem lookup_entry (name key : String) (ns : List Nat) (rest : List (String × List Nat)) :
    ((key, ns) :: rest).lookup name = if name = key then some ns else rest.lookup name := by
  rw [List.lookup_cons]
  by_cases h : name = key
  · simp [h]
  · simp [beq_false_of_ne h, h]

@[simp] theorem isSome_find? (r : Register) (name : String) :
    (r.find? name).isSome = r.contains name := by
  simp [find?, contains]

theorem lookup_file (r : Register) (name other : String) (n : Nat) :
    (r.file name n).entries.lookup other =
      if other = name then some (n :: (r.entries.lookup name).getD [])
      else r.entries.lookup other := by
  obtain ⟨entries⟩ := r
  simp only [file]
  induction entries with
  | nil => simp [fileIn, lookup_entry]
  | cons entry rest ih =>
    obtain ⟨key, ns⟩ := entry
    rw [fileIn]
    by_cases hk : name = key
    · subst hk
      by_cases ho : other = name <;> simp [lookup_entry, ho]
    · by_cases ho : other = key
      · subst ho
        simp [hk, Ne.symm hk]
      · simp [lookup_entry, hk, ho, ih]

theorem find?_file (r : Register) (name other : String) (n : Nat) :
    (r.file name n).find? other =
      if other = name then some (r.get name ++ [n]) else r.find? other := by
  simp only [get, find?, lookup_file]
  split
  · cases r.entries.lookup name <;> simp
  · rfl

/-- Filing adds a number at the end under its name, and changes no other name. -/
theorem get_file (r : Register) (name other : String) (n : Nat) :
    (r.file name n).get other = if other = name then r.get name ++ [n] else r.get other := by
  rw [get, find?_file]
  split <;> rfl

/-- Filing makes the name known. -/
theorem contains_file (r : Register) (name other : String) (n : Nat) :
    (r.file name n).contains other = (decide (other = name) || r.contains other) := by
  rw [contains, lookup_file]
  split <;> simp_all [contains]

theorem lookup_reserve (r : Register) (name other : String) :
    (r.reserve name).entries.lookup other =
      if other = name then some ((r.entries.lookup name).getD []) else r.entries.lookup other := by
  unfold reserve
  split
  · next h =>
    split
    · next ho =>
      subst ho
      obtain ⟨ns, hns⟩ := Option.isSome_iff_exists.1 h
      simp [hns]
    · rfl
  · next h =>
    have h : r.entries.lookup name = none := Option.not_isSome_iff_eq_none.1 h
    rw [List.lookup_append, lookup_entry]
    split
    · next ho => subst ho; simp [h]
    · simp

/-- Reserving files nothing. -/
theorem get_reserve (r : Register) (name other : String) :
    (r.reserve name).get other = r.get other := by
  simp only [get, find?, lookup_reserve]
  split
  · next ho => subst ho; cases r.entries.lookup other <;> simp
  · rfl

/-- Reserving makes the name known. -/
theorem contains_reserve (r : Register) (name other : String) :
    (r.reserve name).contains other = (decide (other = name) || r.contains other) := by
  rw [contains, lookup_reserve]
  split <;> simp_all [contains]

end Register

end Earley
