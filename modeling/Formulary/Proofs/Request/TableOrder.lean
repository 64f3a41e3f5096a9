import Formulary.Table
import Mathlib.Data.List.Induction
import Mathlib.Data.String.Basic

/-!
# The order of tables

A table in ascending order has each key once, so what it answers is what it lists,
`find?_eq_some_iff_mem`. Both ways to give a value to a key keep the order. Hence the table of some
entries is in order, `ascending_ofEntries`, and answers with the last entry of a key,
`find?_ofEntries_eq_some_iff`. In a table in order, a key that has a value keeps it when it is given
a new one by `insertNew`, `find?_insertNew`.
-/

set_option autoImplicit false
set_option relaxedAutoImplicit false

namespace Formulary.Table

variable {Entry : Type} {table : Table Entry} {key : String} {value : Entry}

/-! ### Keys in order -/

theorem ascending_nil : Ascending ([] : Table Entry) :=
  List.Pairwise.nil

theorem ascending_cons {entry : String × Entry} :
    Ascending (entry :: table) ↔ (∀ key ∈ table.map Prod.fst, entry.1 < key) ∧ Ascending table :=
  List.pairwise_cons

theorem find?_eq_none_iff : find? key table = none ↔ key ∉ table.map Prod.fst := by
  induction table with
  | nil => simp [find?]
  | cons entry table ih =>
    rw [find?, List.map_cons, List.mem_cons]
    by_cases hkey : key = entry.1
    · simp [hkey]
    · rw [if_neg hkey, ih, not_or, and_iff_right hkey]

/-- A table in order answers with what it lists. -/
theorem find?_eq_some_iff_mem (hascending : Ascending table) :
    find? key table = some value ↔ (key, value) ∈ table := by
  induction table with
  | nil => simp [find?]
  | cons entry table ih =>
    obtain ⟨hfirst, hrest⟩ := ascending_cons.mp hascending
    rw [find?, List.mem_cons, Prod.ext_iff]
    by_cases hkey : key = entry.1
    · subst hkey
      have hother : (entry.1, value) ∉ table := fun hmember ↦
        lt_irrefl _ (hfirst entry.1 (List.mem_map.mpr ⟨_, hmember, rfl⟩))
      simp [hother, eq_comm]
    · simp [hkey, ih hrest]

/-! ### Giving values to keys -/

/-- The two ways to give a value to a key put the key in the same place. -/
theorem map_fst_insert (key : String) (value : Entry) (table : Table Entry) :
    (insert key value table).map Prod.fst = (insertNew key value table).map Prod.fst := by
  induction table with
  | nil => rfl
  | cons entry table ih =>
    rw [insert, insertNew]
    split
    · rename_i hsame
      simp [hsame]
    · split
      · rfl
      · rw [List.map_cons, List.map_cons, ih]

theorem ascending_insertNew (hascending : Ascending table) (key : String) (value : Entry) :
    Ascending (insertNew key value table) := by
  induction table with
  | nil => exact List.pairwise_singleton _ _
  | cons entry table ih =>
    obtain ⟨hfirst, hrest⟩ := ascending_cons.mp hascending
    rw [insertNew]
    split
    · exact hascending
    · rename_i hother
      split
      · rename_i hless
        refine ascending_cons.mpr ⟨fun later hlater ↦ ?_, hascending⟩
        rcases List.mem_cons.mp hlater with rfl | hlater
        · exact hless
        · exact lt_trans hless (hfirst later hlater)
      · rename_i hnotless
        refine ascending_cons.mpr ⟨fun later hlater ↦ ?_, ih hrest⟩
        rcases mem_keys_insertNew.mp hlater with rfl | hlater
        · exact lt_of_le_of_ne (le_of_not_gt hnotless) (Ne.symm hother)
        · exact hfirst later hlater

theorem ascending_insert (hascending : Ascending table) (key : String) (value : Entry) :
    Ascending (insert key value table) := by
  rw [Ascending, map_fst_insert]
  exact ascending_insertNew hascending key value

/-- A key that has a value keeps it. -/
theorem find?_insertNew (hascending : Ascending table) (key sought : String) (value : Entry) :
    find? sought (insertNew key value table) =
      (find? sought table).or (if sought = key then some value else none) := by
  induction table with
  | nil => rfl
  | cons entry table ih =>
    obtain ⟨hfirst, hrest⟩ := ascending_cons.mp hascending
    rw [insertNew]
    split
    · rename_i hsame
      subst hsame
      by_cases hsought : sought = entry.1 <;> simp [find?, hsought]
    · rename_i hother
      split
      · rename_i hless
        by_cases hsought : sought = key
        · have hnew : find? key table = none := find?_eq_none_iff.mpr fun hmember ↦
            lt_asymm hless (hfirst key hmember)
          simp [find?, hsought, hother, hnew]
        · simp [find?, hsought]
      · rw [find?, find?, ih hrest]
        by_cases hsought : sought = entry.1 <;> simp [hsought]

/-! ### Tables of entries -/

theorem ofEntries_append_singleton (entries : List (String × Entry)) (entry : String × Entry) :
    ofEntries (entries ++ [entry]) = insert entry.1 entry.2 (ofEntries entries) :=
  List.foldl_concat ..

theorem ascending_ofEntries (entries : List (String × Entry)) : Ascending (ofEntries entries) := by
  induction entries using List.reverseRecOn with
  | nil => exact ascending_nil
  | append_singleton entries entry ih =>
    rw [ofEntries_append_singleton]
    exact ascending_insert ih entry.1 entry.2

theorem mem_keys_ofEntries {entries : List (String × Entry)} :
    key ∈ (ofEntries entries).map Prod.fst ↔ key ∈ entries.map Prod.fst := by
  induction entries using List.reverseRecOn with
  | nil => rfl
  | append_singleton entries entry ih =>
    rw [ofEntries_append_singleton, mem_keys_insert, ih, List.map_append, List.mem_append,
      List.map_singleton, List.mem_singleton, or_comm]

/-- The table of some entries answers with the last entry of a key. -/
theorem find?_ofEntries_eq_some_iff {entries : List (String × Entry)} :
    find? key (ofEntries entries) = some value ↔
      ∃ place : Nat, entries[place]? = some (key, value) ∧
        ∀ later, place < later → ∀ other, entries[later]? ≠ some (key, other) := by
  induction entries using List.reverseRecOn with
  | nil => simp [ofEntries, find?]
  | append_singleton entries entry ih =>
    rw [ofEntries_append_singleton, find?_insert]
    have hend : (entries ++ [entry])[entries.length]? = some entry := List.getElem?_concat_length
    split
    · rename_i hkey
      subst hkey
      constructor
      · intro hvalue
        obtain rfl := Option.some.inj hvalue
        refine ⟨entries.length, hend, fun later hlater other ↦ ?_⟩
        rw [List.getElem?_eq_none (by rw [List.length_append, List.length_singleton]; omega)]
        exact (Option.some_ne_none _).symm
      · rintro ⟨place, hplace, hlast⟩
        have hnotless : ¬place < entries.length := fun hless ↦ hlast _ hless _ hend
        obtain ⟨hbound, _⟩ := List.getElem?_eq_some_iff.mp hplace
        rw [List.length_append, List.length_singleton] at hbound
        obtain rfl : place = entries.length := by omega
        rw [Option.some.inj (hend.symm.trans hplace)]
    · rename_i hkey
      have hsame (place : Nat) (other : Entry) :
          (entries ++ [entry])[place]? = some (key, other) ↔
            entries[place]? = some (key, other) := by
        rw [List.getElem?_append]
        split
        · rfl
        · rename_i hnotless
          rw [List.getElem?_eq_none (Nat.le_of_not_lt hnotless), List.getElem?_singleton]
          split
          · exact iff_of_false (fun h ↦ hkey (by rw [Option.some.inj h]))
              (Option.some_ne_none _).symm
          · rfl
      simp only [ih, Ne, hsame]

end Formulary.Table
