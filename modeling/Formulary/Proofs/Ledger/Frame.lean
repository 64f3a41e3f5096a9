import Formulary.Proofs.Ledger.Keys

/-!
# What the value of one parameter changes in a ledger

Ledgers agree apart from some words if they have the same entry for every other word, `AgreesOff`.
Giving the same word the same value keeps ledgers in agreement, and so does giving a word that is
excepted whatever value. Hence what a user enters for one parameter changes nothing in the ledger of
a solution but what is known of the words of that parameter, `agreesOff_ofSolution`.
-/

set_option autoImplicit false
set_option relaxedAutoImplicit false

namespace Formulary.Ledger

open Formulary.Name Formulary.Number

/-- Two ledgers have the same entries, except for some words. -/
def AgreesOff (words : List String) (ledger other : Ledger) : Prop :=
  ∀ key, key ∉ words → ledger.entry? key = other.entry? key

variable {words : List String} {ledger other : Ledger}

theorem AgreesOff.get? (hagree : AgreesOff words ledger other) {key : String}
    (hkey : key ∉ words) : ledger.get? key = other.get? key := by
  rw [Ledger.get?, Ledger.get?, hagree key hkey]

/-! ### One word -/

/-- The same value for the same word keeps ledgers in agreement. -/
theorem AgreesOff.insert (hagree : AgreesOff words ledger other) (word : String) (value : Float) :
    AgreesOff words (ledger.insert word value) (other.insert word value) := by
  rw [Ledger.insert, Ledger.insert]
  split
  · exact hagree
  · intro key hkey
    rw [entry?_fixWord, entry?_fixWord, hagree key hkey]

/-- A value for a word that is excepted changes no other word. -/
theorem agreesOff_insert_of_mem {word : String} (hword : word ∈ words) (ledger : Ledger)
    (value : Float) : AgreesOff words (ledger.insert word value) ledger := by
  rw [Ledger.insert]
  split
  · exact fun _ _ ↦ rfl
  · intro key hkey
    rw [entry?_fixWord, if_neg]
    rintro rfl
    exact hkey hword

theorem AgreesOff.symm (hagree : AgreesOff words ledger other) : AgreesOff words other ledger :=
  fun key hkey ↦ (hagree key hkey).symm

theorem AgreesOff.trans {third : Ledger} (hagree : AgreesOff words ledger other)
    (hlater : AgreesOff words other third) : AgreesOff words ledger third :=
  fun key hkey ↦ (hagree key hkey).trans (hlater key hkey)

/-! ### Parameters and calculations -/

variable {overrides others : Overrides} {parameter : Parameter}

/-- A parameter with the same value for both keeps ledgers in agreement. -/
theorem AgreesOff.insertParameter (hagree : AgreesOff words ledger other)
    (hvalue : parameterValue overrides parameter = parameterValue others parameter) :
    AgreesOff words (insertParameter overrides ledger parameter)
      (Ledger.insertParameter others other parameter) := by
  rw [Ledger.insertParameter, Ledger.insertParameter, hvalue]
  split
  · rename_i value _
    generalize parameterKeys parameter = keys
    induction keys generalizing ledger other with
    | nil => exact hagree
    | cons key keys ih => exact ih (hagree.insert key value)
  · exact hagree

/-- A parameter changes no words but its own. -/
theorem agreesOff_insertParameter_self (overrides : Overrides) (ledger : Ledger)
    (parameter : Parameter) :
    AgreesOff (parameterKeys parameter) (insertParameter overrides ledger parameter) ledger := by
  rw [insertParameter]
  split
  · rename_i value _
    have hfold : ∀ keys ⊆ parameterKeys parameter, ∀ current : Ledger,
        AgreesOff (parameterKeys parameter)
          (keys.foldl (fun current key ↦ current.insert key value) current) current := by
      intro keys hkeys
      induction keys with
      | nil => exact fun _ _ _ ↦ rfl
      | cons key keys ih =>
        intro current
        rw [List.cons_subset] at hkeys
        exact (ih hkeys.2 _).trans (agreesOff_insert_of_mem hkeys.1 current value)
    exact hfold _ (List.Subset.refl _) ledger
  · exact fun _ _ ↦ rfl

/-- The same result of a calculation keeps ledgers in agreement. -/
theorem AgreesOff.insertCalculation (hagree : AgreesOff words ledger other) (name : String)
    (value : Float) :
    AgreesOff words (ledger.insertCalculation name value) (other.insertCalculation name value) := by
  rw [Ledger.insertCalculation, Ledger.insertCalculation]
  split
  · generalize (aliases name).filter (fun key ↦ !key.isEmpty) = keys
    obtain ⟨entries⟩ := ledger
    obtain ⟨otherEntries⟩ := other
    induction keys generalizing entries otherEntries with
    | nil => exact hagree
    | cons key keys ih =>
      refine ih _ _ fun word hword ↦ ?_
      rw [entry?_put, entry?_put, hagree word hword]
  · exact hagree

/-- Parameters with the same values for both, except for one, keep ledgers in agreement except for
the words of that one. -/
theorem AgreesOff.foldl_insertParameter {excepted : Parameter} {parameters : List Parameter}
    (hagree : AgreesOff (parameterKeys excepted) ledger other)
    (hvalues : ∀ parameter ∈ parameters, parameter ≠ excepted →
      parameterValue overrides parameter = parameterValue others parameter) :
    AgreesOff (parameterKeys excepted)
      (parameters.foldl (Ledger.insertParameter overrides) ledger)
      (parameters.foldl (Ledger.insertParameter others) other) := by
  induction parameters generalizing ledger other with
  | nil => exact hagree
  | cons parameter parameters ih =>
    refine ih ?_ fun later hlater ↦ hvalues later (List.mem_cons_of_mem parameter hlater)
    by_cases hexcepted : parameter = excepted
    · rw [hexcepted]
      exact ((agreesOff_insertParameter_self overrides ledger excepted).trans hagree).trans
        (agreesOff_insertParameter_self others other excepted).symm
    · exact hagree.insertParameter (hvalues parameter List.mem_cons_self hexcepted)

/-- What a user enters for one parameter changes nothing in the ledger of a solution but what is
known of the words of the parameter, if no other parameter has its identity. -/
theorem agreesOff_ofSolution {solution : Solution} {excepted : Parameter}
    (hunique : ∀ parameter ∈ solution.parameters, parameter.id = excepted.id →
      parameter = excepted)
    (hothers : ∀ id, id ≠ excepted.id → overrides.find? id = others.find? id) :
    AgreesOff (parameterKeys excepted) (ofSolution solution overrides)
      (ofSolution solution others) := by
  have hvalues : ∀ parameter ∈ solution.parameters, parameter ≠ excepted →
      parameterValue overrides parameter = parameterValue others parameter := by
    intro parameter hparameter hother
    have hid : parameter.id ≠ excepted.id := fun hsame ↦ hother (hunique parameter hparameter hsame)
    rw [parameterValue, parameterValue, Overrides.reading?, Overrides.reading?, hothers _ hid]
  have hempty : AgreesOff (parameterKeys excepted) empty empty := fun _ _ ↦ rfl
  have hparameters : AgreesOff (parameterKeys excepted) (ofParameters solution.parameters overrides)
      (ofParameters solution.parameters others) := hempty.foldl_insertParameter hvalues
  rw [ofSolution, ofSolution]
  generalize ofParameters solution.parameters overrides = ledger at hparameters ⊢
  generalize ofParameters solution.parameters others = other at hparameters ⊢
  generalize solution.calculations = calculations
  induction calculations generalizing ledger other with
  | nil => exact hparameters
  | cons calculation calculations ih =>
    refine ih _ _ ?_
    dsimp only
    cases calculation.priorResult with
    | none => exact hparameters
    | some value => exact hparameters.insertCalculation calculation.name value

end Formulary.Ledger
