import Formulary.Solution.Calculation

/-!
# Migrated calculations

Migration brings a calculation to the present form: a category with a name and a colour, and a
decision whether the result is shown. One that has this form is left as it is, whatever its colour.

The main statement is `map_migrated_iff`. In every list migration completes just the calculations
whose category is not the bare empty name, and a second migration changes nothing just where there
is no such category among them. The bare empty name is copied where the empty name of a coloured
category gives way to the standard one (`migratedName_eq_empty_iff`), and so the result is not
recognised as current (`isCurrent_migrated_iff`): the next migration changes it again.
-/

set_option autoImplicit false
set_option relaxedAutoImplicit false

namespace Formulary.Calculation

open Formulary.Text

/-! ### The present form -/

/-- The present form is a coloured category with a name and a decision whether the result is
shown. The colour may be empty. -/
theorem isCurrent_iff (calculation : Calculation) :
    calculation.isCurrent = true ↔
      calculation.displayResult.isSome = true ∧
        ∃ name colour, calculation.category = some (.coloured name colour) ∧ name ≠ "" := by
  unfold isCurrent
  cases calculation.category with
  | none => simp
  | some category =>
    cases category <;> cases calculation.displayResult <;> simp

/-- What migration is to make of a calculation: it has a decision whether the result is shown, and
a category with a name and a colour. The colour is missing only where the calculation was current
and is left as it is. -/
structure Completes (before after : Calculation) : Prop where
  decided : after.displayResult.isSome = true
  categorised : ∃ name colour, after.category = some (.coloured name colour) ∧ name ≠ "" ∧
    (colour = "" → before.isCurrent = true ∧ after = before)

/-! ### Names and colours -/

theorem standardColour_ne_empty (category : String) : standardColour category ≠ "" := by
  unfold standardColour
  split <;> decide

/-- The only empty name that migration gives is the one it copies from a bare category. -/
theorem migratedName_eq_empty_iff (category : Option Category) :
    migratedName category = "" ↔ category = some (.plain "") := by
  cases category with
  | none => simp [migratedName]
  | some category =>
    cases category with
    | plain name => simp [migratedName]
    | coloured name colour =>
      by_cases hname : name = "" <;> simp [migratedName, hname]

/-- Migration gives a category with a colour. -/
theorem exists_migratedCategory_eq (category : Option Category) :
    ∃ colour, migratedCategory category = .coloured (migratedName category) colour ∧
      colour ≠ "" := by
  have hstandard := standardColour_ne_empty (migratedName category)
  unfold migratedCategory
  split
  · rename_i name colour
    refine ⟨_, rfl, ?_⟩
    by_cases hcolour : colour = ""
    · simpa [hcolour] using hstandard
    · simp [hcolour]
  · exact ⟨_, rfl, hstandard⟩

/-! ### One calculation -/

theorem migrated_of_isCurrent {calculation : Calculation}
    (hcurrent : calculation.isCurrent = true) :
    calculation.migrated = calculation := by
  simp [migrated, hcurrent]

theorem migrated_of_not_isCurrent {calculation : Calculation}
    (hcurrent : ¬ calculation.isCurrent = true) :
    calculation.migrated =
      { calculation with
        category := some (migratedCategory calculation.category)
        displayResult := some (calculation.displayResult.getD false) } := by
  simp [migrated, hcurrent]

/-- What is not current has a category with a colour after migration, and the name is the one that
migration gives. -/
theorem exists_category_migrated {calculation : Calculation}
    (hcurrent : ¬ calculation.isCurrent = true) :
    ∃ colour, calculation.migrated.category =
      some (.coloured (migratedName calculation.category) colour) ∧ colour ≠ "" := by
  obtain ⟨colour, hcategory, hcolour⟩ := exists_migratedCategory_eq calculation.category
  exact ⟨colour, by rw [migrated_of_not_isCurrent hcurrent, ← hcategory], hcolour⟩

/-- The result of a migration is recognised as current unless the category was the bare empty
name. -/
theorem isCurrent_migrated_iff (calculation : Calculation) :
    calculation.migrated.isCurrent = true ↔ calculation.category ≠ some (.plain "") := by
  by_cases hcurrent : calculation.isCurrent = true
  · obtain ⟨-, name, colour, hcategory, -⟩ := calculation.isCurrent_iff.mp hcurrent
    simp [migrated_of_isCurrent hcurrent, hcurrent, hcategory]
  · obtain ⟨colour, hcategory, -⟩ := exists_category_migrated hcurrent
    have hdecided : calculation.migrated.displayResult.isSome = true := by
      rw [migrated_of_not_isCurrent hcurrent, Option.isSome_some]
    rw [isCurrent_iff, ne_eq, ← migratedName_eq_empty_iff]
    constructor
    · rintro ⟨-, name, other, hother, hname⟩
      cases hother.symm.trans hcategory
      exact hname
    · exact fun hname ↦ ⟨hdecided, _, colour, hcategory, hname⟩

/-- Migration leaves a calculation as it is just where it is current. -/
theorem migrated_eq_self_iff (calculation : Calculation) :
    calculation.migrated = calculation ↔ calculation.isCurrent = true := by
  refine ⟨fun hsame ↦ Decidable.byContradiction fun hcurrent ↦ ?_, migrated_of_isCurrent⟩
  -- the category is coloured, so that its name cannot be the one of a bare category
  obtain ⟨colour, hcategory, -⟩ := exists_category_migrated hcurrent
  rw [hsame] at hcategory
  refine hcurrent (hsame ▸ (isCurrent_migrated_iff calculation).mpr fun hplain ↦ ?_)
  cases hplain.symm.trans hcategory

/-- A second migration changes nothing unless the category was the bare empty name: then the first
one gives a coloured category without a name, and the second one names it. -/
theorem migrated_migrated_iff (calculation : Calculation) :
    calculation.migrated.migrated = calculation.migrated ↔
      calculation.category ≠ some (.plain "") := by
  rw [migrated_eq_self_iff, isCurrent_migrated_iff]

/-- Migration completes a calculation unless its category was the bare empty name. -/
theorem completes_migrated_iff (calculation : Calculation) :
    Completes calculation calculation.migrated ↔ calculation.category ≠ some (.plain "") := by
  rw [← isCurrent_migrated_iff, isCurrent_iff]
  constructor
  · rintro ⟨hdecided, name, colour, hcategory, hname, -⟩
    exact ⟨hdecided, name, colour, hcategory, hname⟩
  · rintro ⟨hdecided, name, colour, hcategory, hname⟩
    refine ⟨hdecided, name, colour, hcategory, hname, fun hempty ↦ ?_⟩
    by_cases hcurrent : calculation.isCurrent = true
    · exact ⟨hcurrent, migrated_of_isCurrent hcurrent⟩
    · obtain ⟨other, hother, hcolour⟩ := exists_category_migrated hcurrent
      cases hother.symm.trans hcategory
      exact absurd hempty hcolour

/-! ### A list of calculations -/

/-- In every list migration completes just the calculations whose category is not the bare empty
name, and it is idempotent on the list just where none has this category. -/
theorem map_migrated_iff (calculations : List Calculation) :
    (∀ calculation ∈ calculations, Completes calculation calculation.migrated ↔
        calculation.category ≠ some (.plain "")) ∧
      ((calculations.map migrated).map migrated = calculations.map migrated ↔
        ∀ calculation ∈ calculations, calculation.category ≠ some (.plain "")) := by
  refine ⟨fun calculation _ ↦ completes_migrated_iff calculation, ?_⟩
  rw [List.map_map, List.map_inj_left]
  exact forall₂_congr fun calculation _ ↦ migrated_migrated_iff calculation

/-- A calculation that was saved with the bare empty category: migration gives it a category
without a name, and a second migration changes it again. -/
theorem migrated_nameless :
    let nameless : Calculation := { id := "c1", name := "Savings", category := some (.plain "") }
    [nameless].map migrated =
        [{ nameless with category := some (.coloured "" "gray"), displayResult := some false }] ∧
      ¬ Completes nameless nameless.migrated ∧
      ([nameless].map migrated).map migrated ≠ [nameless].map migrated := by
  intro nameless
  refine ⟨by decide +kernel, ?_, by decide +kernel⟩
  rintro ⟨-, name, colour, hcategory, hname, -⟩
  have hnameless : nameless.migrated.category = some (.coloured "" "gray") := by decide +kernel
  cases hnameless.symm.trans hcategory
  exact hname rfl

end Formulary.Calculation
