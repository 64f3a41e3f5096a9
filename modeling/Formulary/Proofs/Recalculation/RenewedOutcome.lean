import Formulary.Proofs.Recalculation.FixedPoint

/-!
# What a recalculation changes

A recalculation gives every calculation a new outcome with the status that belongs to it and keeps
all else. A step of the run reads only the name and the formula of a calculation, `step_congr`, and
so do the references, `referenceGraph_congr`. Hence the outcomes follow from the names and formulas
alone, `outcomeAt_congr`: whatever results the calculations came with, they are not seen, and a
second recalculation changes nothing. The main statement is `recalculate_renews_outcomes`.
-/

set_option autoImplicit false
set_option relaxedAutoImplicit false

namespace Formulary

open Formulary.Name Relation

/-! ### Names and formulas -/

/-- What a recalculation reads of a calculation: its name and its formula. -/
def Calculation.definition (calculation : Calculation) : String × String :=
  (calculation.name, calculation.formula)

variable {settings : Settings} {parameters : List Parameter} {overrides : Overrides}
  {first second : List Calculation}

/-- References follow from the names and formulas of the calculations. -/
theorem referenceGraph_congr
    (hsame : first.map Calculation.definition = second.map Calculation.definition)
    (parameters : List Parameter) :
    referenceGraph parameters first = referenceGraph parameters second := by
  have harrows (calculations : List Calculation) : referenceGraph parameters calculations =
      ⟨(calculations.map Calculation.definition).map fun source ↦
        (List.range (calculations.map Calculation.definition).length).filter fun target ↦
          (calculations.map Calculation.definition)[target]?.any fun definition ↦
            refersTo (parameterWords parameters) source.2 definition.1⟩ := by
    simp [referenceGraph, Calculation.definition, Function.comp_def, Option.any_map]
  rw [harrows, harrows, hsame]

/-- A step reads only the names and formulas of the calculations. -/
theorem step_congr
    (hsame : first.map Calculation.definition = second.map Calculation.definition)
    (progress : Progress) (position : Nat) :
    progress.step settings first position = progress.step settings second position := by
  have hplace : first[position]?.map Calculation.definition =
      second[position]?.map Calculation.definition := by
    rw [← List.getElem?_map, hsame, List.getElem?_map]
  cases hfirst : first[position]? with
  | none =>
    rw [hfirst, Option.map_none, eq_comm, Option.map_eq_none_iff] at hplace
    simp only [Progress.step, hfirst, hplace]
  | some calculation =>
    rw [hfirst, Option.map_some, eq_comm, Option.map_eq_some_iff] at hplace
    obtain ⟨other, hsecond, hdefinition⟩ := hplace
    obtain ⟨hname, hformula⟩ := Prod.mk.inj hdefinition
    simp only [Progress.step, hfirst, hsecond, hname, hformula]

theorem runCalculations_congr
    (hsame : first.map Calculation.definition = second.map Calculation.definition)
    (ledger : Ledger) (positions : List Nat) :
    runCalculations settings first ledger positions =
      runCalculations settings second ledger positions := by
  have hstep : Progress.step settings first = Progress.step settings second :=
    funext fun progress ↦ funext (step_congr hsame progress)
  rw [runCalculations, runCalculations, hstep]

/-! ### Outcomes -/

/-- The outcome that a recalculation finds at a position. -/
def outcomeAt (settings : Settings) (solution : Solution) (overrides : Overrides)
    (position : Nat) : Outcome :=
  (runCalculations settings solution.calculations (.ofParameters solution.parameters overrides)
    (evaluationOrder solution.parameters solution.calculations).order).outcome position

theorem recalculate_calculations (settings : Settings) (solution : Solution)
    (overrides : Overrides) : (recalculate settings solution overrides).calculations =
      solution.calculations.mapIdx fun position calculation ↦
        calculation.withOutcome (outcomeAt settings solution overrides position) := rfl

/-- An outcome is a finite number or a failure. -/
theorem outcomeAt_cases (settings : Settings) (solution : Solution) (overrides : Overrides)
    (position : Nat) :
    (∃ value, outcomeAt settings solution overrides position = .value value ∧
      value.isFinite = true) ∨ outcomeAt settings solution overrides position = .failure := by
  rw [outcomeAt, Progress.outcome]
  split
  · rename_i value hfound
    exact Or.inl ⟨value, rfl, isFinite_of_foundBy hfound⟩
  · exact Or.inr rfl

/-- What lies on a cycle of references fails. -/
theorem outcomeAt_of_cyclic {solution : Solution} {position : Nat}
    (hcyclic : TransGen (Refers solution.parameters solution.calculations) position position) :
    outcomeAt settings solution overrides position = .failure :=
  outcome_of_not_mem fun hmember ↦
    (((condenses_evaluationOrder _ _).mem_order_iff position).mp hmember).2 hcyclic

/-- Outcomes follow from the names and formulas of the calculations, and so do the notices. -/
theorem outcomeAt_congr
    (hsame : first.map Calculation.definition = second.map Calculation.definition) :
    outcomeAt settings ⟨parameters, first⟩ overrides =
        outcomeAt settings ⟨parameters, second⟩ overrides ∧
      (recalculate settings ⟨parameters, first⟩ overrides).log =
        (recalculate settings ⟨parameters, second⟩ overrides).log := by
  have horder : evaluationOrder parameters first = evaluationOrder parameters second := by
    rw [evaluationOrder, evaluationOrder, referenceGraph_congr hsame]
  constructor
  · funext position
    show (runCalculations settings first _ (evaluationOrder parameters first).order).outcome _ =
      (runCalculations settings second _ (evaluationOrder parameters second).order).outcome _
    rw [runCalculations_congr hsame, horder]
  · simp only [recalculate, runCalculations_congr hsame, horder]

/-- A recalculation keeps the names and formulas. -/
theorem map_definition_recalculate (settings : Settings) (solution : Solution)
    (overrides : Overrides) :
    (recalculate settings solution overrides).calculations.map Calculation.definition =
      solution.calculations.map Calculation.definition := by
  refine List.ext_getElem? fun position ↦ ?_
  rw [List.getElem?_map, recalculate_calculations, List.getElem?_mapIdx, Option.map_map,
    List.getElem?_map]
  rfl

/-- The results and states of a recalculation are those of its outcomes. -/
theorem map_result_recalculate (settings : Settings) (solution : Solution)
    (overrides : Overrides) :
    (recalculate settings solution overrides).calculations.map
        (fun calculation ↦ (calculation.result, calculation.status)) =
      (List.range solution.calculations.length).map fun position ↦
        (some (outcomeAt settings solution overrides position),
          some (outcomeAt settings solution overrides position).status) := by
  refine List.ext_getElem (by simp [recalculate_calculations]) fun position _ _ ↦ ?_
  simp [recalculate_calculations, Calculation.withOutcome]

/-- A second recalculation changes nothing. -/
theorem recalculate_recalculate (settings : Settings) (parameters : List Parameter)
    (calculations : List Calculation) (overrides : Overrides) :
    recalculate settings
        ⟨parameters, (recalculate settings ⟨parameters, calculations⟩ overrides).calculations⟩
        overrides =
      recalculate settings ⟨parameters, calculations⟩ overrides := by
  obtain ⟨houtcomes, hlog⟩ := @outcomeAt_congr settings parameters overrides _ _
    (map_definition_recalculate settings ⟨parameters, calculations⟩ overrides)
  have hcalculations : (recalculate settings
        ⟨parameters, (recalculate settings ⟨parameters, calculations⟩ overrides).calculations⟩
        overrides).calculations =
      (recalculate settings ⟨parameters, calculations⟩ overrides).calculations := by
    refine List.ext_getElem? fun position ↦ ?_
    simp only [recalculate_calculations, List.getElem?_mapIdx, Option.map_map] at houtcomes ⊢
    rw [houtcomes]
    rfl
  exact (Recalculation.mk.injEq ..).mpr ⟨hcalculations, hlog⟩

/-- A recalculation keeps the calculations at their places and changes nothing of them but result
and status: the result is a finite number and the status is valid, or both say that the calculation
failed, as all do that lie on a cycle of references. The new outcomes follow from the names and
formulas of the calculations, so a second recalculation changes nothing. -/
theorem recalculate_renews_outcomes (settings : Settings) (parameters : List Parameter)
    (calculations : List Calculation) (overrides : Overrides) :
    (recalculate settings ⟨parameters, calculations⟩ overrides).calculations.length =
        calculations.length ∧
      (∀ (position : Nat) (calculation : Calculation),
        calculations[position]? = some calculation → ∃ result status,
          (recalculate settings ⟨parameters, calculations⟩ overrides).calculations[position]? =
              some { calculation with result := some result, status := some status } ∧
            ((∃ value, result = .value value ∧ value.isFinite = true ∧ status = .valid) ∨
              result = .failure ∧ status = .error) ∧
            (TransGen (Refers parameters calculations) position position →
              result = .failure)) ∧
      (∀ others : List Calculation,
        others.map (fun other ↦ (other.name, other.formula)) =
            calculations.map (fun calculation ↦ (calculation.name, calculation.formula)) →
          (recalculate settings ⟨parameters, others⟩ overrides).calculations.map
              (fun other ↦ (other.result, other.status)) =
            (recalculate settings ⟨parameters, calculations⟩ overrides).calculations.map
              (fun calculation ↦ (calculation.result, calculation.status))) ∧
      recalculate settings
          ⟨parameters, (recalculate settings ⟨parameters, calculations⟩ overrides).calculations⟩
          overrides =
        recalculate settings ⟨parameters, calculations⟩ overrides := by
  refine ⟨length_recalculate .., fun position calculation hcalculation ↦ ?_,
    fun others hsame ↦ ?_, ?_⟩
  · have hplace :
        (recalculate settings ⟨parameters, calculations⟩ overrides).calculations[position]? =
          some (calculation.withOutcome
            (outcomeAt settings ⟨parameters, calculations⟩ overrides position)) := by
      rw [recalculate_calculations, List.getElem?_mapIdx, hcalculation, Option.map_some]
    refine ⟨_, _, hplace, ?_, fun hcyclic ↦ outcomeAt_of_cyclic hcyclic⟩
    rcases outcomeAt_cases settings ⟨parameters, calculations⟩ overrides position with
      ⟨value, hvalue, hfinite⟩ | hfailure
    · refine Or.inl ⟨value, hvalue, hfinite, ?_⟩
      rw [hvalue, Outcome.status, Outcome.number?, Number.finite?, if_pos hfinite]
      rfl
    · refine Or.inr ⟨hfailure, ?_⟩
      rw [hfailure]
      rfl
  · have hlength : others.length = calculations.length := by
      simpa using congrArg List.length hsame
    rw [map_result_recalculate, map_result_recalculate, (outcomeAt_congr hsame).1, hlength]
  · exact recalculate_recalculate settings parameters calculations overrides

end Formulary
