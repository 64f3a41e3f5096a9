/-!
# Tables

A table gives values to texts and lists its entries in ascending order of their keys. `insert`
replaces what a key had, so the table answers with the new value, `find?_insert`; `insertNew` keeps
it. Either adds the key and no other.
-/

set_option autoImplicit false
set_option relaxedAutoImplicit false

namespace Formulary

/-- Values by keys, in ascending order of the keys. -/
abbrev Table (Entry : Type) := List (String × Entry)

namespace Table

variable {Entry : Type}

/-- The value of a key. -/
def find? (key : String) : Table Entry → Option Entry
  | [] => none
  | (other, value) :: rest => if key = other then some value else find? key rest

/-- Gives a value to a key, in place of what it had. -/
def insert (key : String) (value : Entry) : Table Entry → Table Entry
  | [] => [(key, value)]
  | (other, current) :: rest =>
    if key = other then (key, value) :: rest
    else if key < other then (key, value) :: (other, current) :: rest
    else (other, current) :: insert key value rest

/-- Gives a value to a key that has none. -/
def insertNew (key : String) (value : Entry) : Table Entry → Table Entry
  | [] => [(key, value)]
  | (other, current) :: rest =>
    if key = other then (other, current) :: rest
    else if key < other then (key, value) :: (other, current) :: rest
    else (other, current) :: insertNew key value rest

/-- The table of some entries; of two with one key the later one counts. -/
def ofEntries (entries : List (String × Entry)) : Table Entry :=
  entries.foldl (fun table (key, value) ↦ insert key value table) []

/-- Keys stand in strictly ascending order. -/
def Ascending (table : Table Entry) : Prop :=
  (table.map Prod.fst).Pairwise (· < ·)

/-! ### Laws -/

theorem find?_insert (key sought : String) (value : Entry) (table : Table Entry) :
    find? sought (insert key value table) =
      if sought = key then some value else find? sought table := by
  induction table with
  | nil => simp [insert, find?]
  | cons entry rest ih =>
    obtain ⟨other, current⟩ := entry
    rw [insert]
    split
    · rename_i hsame
      subst hsame
      by_cases hsought : sought = key <;> simp [find?, hsought]
    · split
      · simp [find?]
      · rename_i hdifferent _
        rw [find?, ih, find?]
        by_cases hsought : sought = key
        · subst hsought
          simp [hdifferent]
        · simp [hsought]

theorem mem_keys_insert {key other : String} {value : Entry} {table : Table Entry} :
    other ∈ (insert key value table).map Prod.fst ↔
      other = key ∨ other ∈ table.map Prod.fst := by
  induction table with
  | nil => simp [insert]
  | cons entry rest ih =>
    obtain ⟨first, current⟩ := entry
    rw [insert]
    split
    · rename_i hsame
      simp [hsame]
    · split
      · simp
      · simp only [List.map_cons, List.mem_cons, ih]
        constructor
        · rintro (hother | hother | hother) <;> simp [hother]
        · rintro (hother | hother | hother) <;> simp [hother]

theorem mem_keys_insertNew {key other : String} {value : Entry} {table : Table Entry} :
    other ∈ (insertNew key value table).map Prod.fst ↔
      other = key ∨ other ∈ table.map Prod.fst := by
  induction table with
  | nil => simp [insertNew]
  | cons entry rest ih =>
    obtain ⟨first, current⟩ := entry
    rw [insertNew]
    split
    · rename_i hsame
      simp [hsame]
    · split
      · simp
      · simp only [List.map_cons, List.mem_cons, ih]
        constructor
        · rintro (hother | hother | hother) <;> simp [hother]
        · rintro (hother | hother | hother) <;> simp [hother]

end Table

end Formulary
