import Formulary.Proofs.Recalculation.Run

/-!
# Recalculation is a fixed point

After a recalculation every calculation that lies on no cycle of references has the result that a
preview of its formula gives in the recalculated solution, and every other one is a failure:
`recalculate_isFixedPoint`. A preview sees the results of all calculations, while the recalculation
only saw those of the calculations before; what it did not see, the formula does not refer to.
-/

set_option autoImplicit false
set_option relaxedAutoImplicit false

namespace Formulary

open Formulary.Name Formulary.Number Formulary.Text Relation

/-! ### The ledger of a recalculated solution -/

/-- The name of a calculation with its last result. -/
def Calculation.namedResult (calculation : Calculation) : Option (String × Float) :=
  calculation.priorResult.map fun value ↦ (calculation.name, value)

/-- The ledger of a solution holds the last results of its calculations. -/
theorem ofSolution_eq_withResults (solution : Solution) (overrides : Overrides) :
    Ledger.ofSolution solution overrides =
      (Ledger.ofParameters solution.parameters overrides).withResults
        (solution.calculations.filterMap Calculation.namedResult) := by
  rw [Ledger.ofSolution, Ledger.withResults, List.foldl_filterMap]
  congr 1
  funext ledger calculation
  rw [Calculation.namedResult]
  cases calculation.priorResult <;> rfl

/-- The last results are finite and each is that of a calculation. -/
theorem exists_calculation_of_namedResult {solution : Solution} {result : String × Float}
    (hmember : result ∈ solution.calculations.filterMap Calculation.namedResult) :
    result.2.isFinite = true ∧ ∃ calculation ∈ solution.calculations,
      result.1 = calculation.name ∧ calculation.priorResult = some result.2 := by
  obtain ⟨calculation, hcalculation, hnamed⟩ := List.mem_filterMap.mp hmember
  obtain ⟨value, hprior, rfl⟩ := Option.map_eq_some_iff.mp hnamed
  refine ⟨?_, calculation, hcalculation, rfl, hprior⟩
  obtain ⟨outcome, -, hnumber⟩ := Option.bind_eq_some_iff.mp hprior
  cases outcome with
  | failure => cases hnumber
  | value number => exact (Number.finite?_eq_some_iff.mp hnumber).2

/-- Calculations with new outcomes have the numbers of these as their last results. -/
theorem filterMap_namedResult_mapIdx (calculations : List Calculation) (outcome : Nat → Outcome) :
    (calculations.mapIdx fun position calculation ↦
        calculation.withOutcome (outcome position)).filterMap Calculation.namedResult =
      resultsAt calculations (fun position ↦ (outcome position).number?)
        (List.range calculations.length) := by
  induction calculations using List.reverseRecOn with
  | nil => rfl
  | append_singleton front last ih =>
    have hfront : resultsAt (front ++ [last]) (fun position ↦ (outcome position).number?)
          (List.range front.length) =
        resultsAt front (fun position ↦ (outcome position).number?) (List.range front.length) := by
      refine List.filterMap_congr fun position hposition ↦ ?_
      rw [resultAt, resultAt, List.getElem?_append_left (List.mem_range.mp hposition)]
    have hlast : resultAt (front ++ [last]) (fun position ↦ (outcome position).number?)
          front.length = (last.withOutcome (outcome front.length)).namedResult := by
      rw [resultAt, List.getElem?_concat_length, Option.bind_some]
      rfl
    have hbehind : resultsAt (front ++ [last]) (fun position ↦ (outcome position).number?)
          [front.length] =
        [last.withOutcome (outcome front.length)].filterMap Calculation.namedResult := by
      rw [resultsAt, List.filterMap_cons, List.filterMap_cons, hlast]
      rfl
    rw [List.mapIdx_concat, List.filterMap_append, ih, List.length_append, List.length_singleton,
      List.range_succ, resultsAt_append, hfront, hbehind]

variable {settings : Settings} {parameters : List Parameter} {calculations : List Calculation}
  {overrides : Overrides}

/-- The number of the outcome at a position is what the run has found there. -/
theorem number?_outcome (calculations : List Calculation) (ledger : Ledger) (positions : List Nat)
    (position : Nat) :
    ((runCalculations settings calculations ledger positions).outcome position).number? =
      foundBy settings calculations ledger positions position := by
  rw [Progress.outcome]
  cases hfound :
      (runCalculations settings calculations ledger positions).values.lookup position with
  | none => exact hfound.symm
  | some value =>
    have hfinite : value.isFinite = true := isFinite_of_foundBy hfound
    show finite? value = _
    rw [finite?, if_pos hfinite]
    exact hfound.symm

/-- The ledger of the recalculated solution holds all that the run has found. -/
theorem ofSolution_recalculate (settings : Settings) (parameters : List Parameter)
    (calculations : List Calculation) (overrides : Overrides) :
    Ledger.ofSolution
        ⟨parameters, (recalculate settings ⟨parameters, calculations⟩ overrides).calculations⟩
        overrides =
      (Ledger.ofParameters parameters overrides).withResults
        (resultsAt calculations
          (foundBy settings calculations (Ledger.ofParameters parameters overrides)
            (evaluationOrder parameters calculations).order)
          (List.range calculations.length)) := by
  rw [ofSolution_eq_withResults]
  show Ledger.withResults _ (List.filterMap _ (List.mapIdx _ calculations)) = _
  rw [filterMap_namedResult_mapIdx]
  exact congrArg _ (resultsAt_congr fun position _ ↦ number?_outcome calculations _ _ position)

/-! ### The results of a recalculation -/

/-- The outcome at a position is that of the evaluation that the run made there. -/
theorem outcome_eq_ofEvaluation {progress : Progress} {position : Nat}
    {evaluated : Except Formula.EvaluationError Float}
    (hfound : progress.values.lookup position = evaluated.toOption) :
    progress.outcome position = Outcome.ofEvaluation evaluated := by
  rw [Progress.outcome, hfound]
  cases evaluated <;> rfl

/-- Where a run does not come to, the outcome is a failure. -/
theorem outcome_of_not_mem {ledger : Ledger} {positions : List Nat} {position : Nat}
    (hposition : position ∉ positions) :
    (runCalculations settings calculations ledger positions).outcome position = .failure := by
  have hfound := @foundBy_of_not_mem settings calculations ledger positions position hposition
  unfold foundBy at hfound
  rw [Progress.outcome, hfound]

/-- What stands before an item of a list without repetitions stands in the part in front of it. -/
theorem mem_of_idxOf_lt {front back : List Nat} {item earlier : Nat} (hitem : item ∉ front)
    (hbefore : (front ++ item :: back).idxOf earlier < (front ++ item :: back).idxOf item) :
    earlier ∈ front := by
  rw [List.idxOf_append, List.idxOf_append, if_neg hitem, List.idxOf_cons_self] at hbefore
  split at hbefore
  · assumption
  · omega

/-- What a calculation on no cycle refers to, and the run has found, stands in front of it. -/
theorem mem_front_of_refers {front back : List Nat} {position target : Nat} {ledger : Ledger}
    (horder : (evaluationOrder parameters calculations).order = front ++ position :: back)
    (hfound : (foundBy settings calculations ledger (front ++ position :: back) target).isSome =
      true)
    (hrefers : Refers parameters calculations position target) : target ∈ front := by
  have hcondenses := condenses_evaluationOrder parameters calculations
  have hnodup := (List.nodup_append.mp hcondenses.nodup).1
  have htarget : target ∈ front ++ position :: back := by
    refine Decidable.byContradiction fun hother ↦ ?_
    rw [foundBy_of_not_mem hother] at hfound
    cases hfound
  have hposition : position ∈ front ++ position :: back :=
    List.mem_append_right _ List.mem_cons_self
  rw [← horder] at htarget hposition
  have hbefore := hcondenses.before position hposition target htarget hrefers
  rw [horder] at hnodup hbefore
  refine mem_of_idxOf_lt (fun hmember ↦ ?_) hbefore
  exact (List.nodup_append.mp hnodup).2.2 position hmember position List.mem_cons_self rfl

/-- A calculation on no cycle has the outcome that its formula has with all results. -/
theorem outcome_of_wordsApart
    (hapart : (Solution.mk parameters calculations).WordsApart overrides)
    {position : Nat} {calculation : Calculation}
    (hcalculation : calculations[position]? = some calculation)
    (hposition : position ∈ (evaluationOrder parameters calculations).order) :
    (runCalculations settings calculations (Ledger.ofParameters parameters overrides)
        (evaluationOrder parameters calculations).order).outcome position =
      Outcome.ofEvaluation (preview settings
        ⟨parameters, (recalculate settings ⟨parameters, calculations⟩ overrides).calculations⟩
        overrides calculation.formula) := by
  have hcondenses := condenses_evaluationOrder parameters calculations
  have hnodup := (List.nodup_append.mp hcondenses.nodup).1
  obtain ⟨front, back, horder⟩ := List.append_of_mem hposition
  have hinside : front ⊆ List.range calculations.length := by
    intro other hother
    have hmember : other ∈ (evaluationOrder parameters calculations).order :=
      horder ▸ List.mem_append_left _ hother
    exact List.mem_range.mpr ((hcondenses.mem_order_iff other).mp hmember).1
  rw [preview, ofSolution_recalculate]
  rw [horder] at hnodup ⊢
  refine outcome_eq_ofEvaluation ?_
  have hreferred : ∀ target ∈ List.range calculations.length,
      (foundBy settings calculations (Ledger.ofParameters parameters overrides)
        (front ++ position :: back) target).isSome = true →
      Refers parameters calculations position target → target ∈ front :=
    fun target _ hfound hrefers ↦ mem_front_of_refers horder hfound hrefers
  have hsame := evaluateIn_resultsAt hapart (fun _ _ ↦ isFinite_of_foundBy) hcalculation hinside
    hreferred settings
  rw [← hsame, resultsAt_foundBy_append hnodup,
    ← ledger_runCalculations (List.nodup_append.mp hnodup).1]
  have hhere := @foundBy_append_cons settings calculations
    (Ledger.ofParameters parameters overrides) front back position hnodup
  rw [foundIn, hcalculation] at hhere
  exact hhere

/-- In a solution with plain names, a calculation on no cycle has the outcome that its formula has
with all results. -/
theorem outcome_of_mem_order
    (hnames : (Solution.mk parameters calculations).HasPlainNames overrides)
    {position : Nat} {calculation : Calculation}
    (hcalculation : calculations[position]? = some calculation)
    (hposition : position ∈ (evaluationOrder parameters calculations).order) :
    (runCalculations settings calculations (Ledger.ofParameters parameters overrides)
        (evaluationOrder parameters calculations).order).outcome position =
      Outcome.ofEvaluation (preview settings
        ⟨parameters, (recalculate settings ⟨parameters, calculations⟩ overrides).calculations⟩
        overrides calculation.formula) :=
  outcome_of_wordsApart hnames.wordsApart hcalculation hposition

/-- A recalculation keeps the number of calculations. -/
theorem length_recalculate (settings : Settings) (solution : Solution) (overrides : Overrides) :
    (recalculate settings solution overrides).calculations.length =
      solution.calculations.length :=
  List.length_mapIdx

/-- After a recalculation of a solution with plain names, a calculation on no cycle of references
has the result that a preview of its formula gives, and a calculation on a cycle is a failure. -/
theorem recalculate_isFixedPoint {solution : Solution} (hnames : solution.HasPlainNames overrides)
    {position : Nat} {calculation : Calculation}
    (hcalculation :
      (recalculate settings solution overrides).calculations[position]? = some calculation) :
    (¬TransGen (Refers solution.parameters solution.calculations) position position →
        calculation.result = some (Outcome.ofEvaluation (preview settings
          ⟨solution.parameters, (recalculate settings solution overrides).calculations⟩ overrides
          calculation.formula))) ∧
      (TransGen (Refers solution.parameters solution.calculations) position position →
        calculation.result = some .failure ∧ calculation.status = some .error) := by
  obtain ⟨parameters, calculations⟩ := solution
  have hcondenses := condenses_evaluationOrder parameters calculations
  have hplaces := List.getElem?_mapIdx.symm.trans hcalculation
  obtain ⟨before, hbefore, rfl⟩ := Option.map_eq_some_iff.mp hplaces
  constructor
  · intro hacyclic
    have hposition := (hcondenses.mem_order_iff position).mpr
      ⟨(List.getElem?_eq_some_iff.mp hbefore).1, hacyclic⟩
    show some (Progress.outcome _ position) =
      some (Outcome.ofEvaluation (preview settings _ overrides before.formula))
    rw [outcome_of_mem_order hnames hbefore hposition]
  · intro hcyclic
    have hposition : position ∉ (evaluationOrder parameters calculations).order :=
      fun hmember ↦ ((hcondenses.mem_order_iff position).mp hmember).2 hcyclic
    show some (Progress.outcome _ position) = some .failure ∧
      some (Progress.outcome _ position).status = some .error
    rw [outcome_of_not_mem hposition]
    exact ⟨rfl, rfl⟩

/-- Incomes of which one follows from another and a rate, and one that refers to itself. -/
def incomes : Solution where
  parameters := [{ id := "rate", name := "Rate", value := some (.number 0.25) }]
  calculations := [
    { id := "net", name := "net income", formula := "gross_income * (1 - rate)" },
    { id := "gross", name := "gross income", formula := "80 + 20" },
    { id := "spiral", name := "spiral", formula := "spiral + 1" }]

/-- Of the incomes, the net one is what its preview gives, and the one on a cycle is a failure. -/
theorem recalculate_incomes : incomes.HasPlainNames [] ∧ ∃ net spiral,
    (recalculate .standard incomes []).calculations[0]? = some net ∧
      (recalculate .standard incomes []).calculations[2]? = some spiral ∧
      net.result = some (Outcome.ofEvaluation (preview .standard
        ⟨incomes.parameters, (recalculate .standard incomes []).calculations⟩ [] net.formula)) ∧
      spiral.result = some .failure ∧ spiral.status = some .error := by
  have hascii : (incomes.calculations.all fun calculation ↦
      calculation.formula.toList.all fun character ↦ character.toNat < 128) = true := by
    decide +kernel
  have hformulas : ∀ calculation ∈ incomes.calculations,
      ∀ character ∈ calculation.formula.toList, character.toNat < 128 := by
    intro calculation hcalculation character hcharacter
    have hformula := List.all_eq_true.mp hascii calculation hcalculation
    exact of_decide_eq_true (List.all_eq_true.mp hformula character hcharacter)
  have hnames : incomes.HasPlainNames [] :=
    ⟨hformulas, by decide +kernel, by decide +kernel, by decide +kernel, by decide +kernel,
      by decide +kernel⟩
  have hacyclic : ¬TransGen (Refers incomes.parameters incomes.calculations) 0 0 :=
    (((condenses_evaluationOrder incomes.parameters incomes.calculations).mem_order_iff 0).mp
      (by decide +kernel)).2
  have hcyclic : TransGen (Refers incomes.parameters incomes.calculations) 2 2 :=
    .single ⟨_, _, rfl, rfl, by decide +kernel⟩
  have hplace {position : Nat} (hposition : position < 3) :
      ∃ calculation, (recalculate .standard incomes []).calculations[position]? =
        some calculation :=
    ⟨_, List.getElem?_eq_getElem (by rw [length_recalculate]; exact hposition)⟩
  obtain ⟨net, hnet⟩ := hplace (show 0 < 3 by decide)
  obtain ⟨spiral, hspiral⟩ := hplace (show 2 < 3 by decide)
  exact ⟨hnames, net, spiral, hnet, hspiral, (recalculate_isFixedPoint hnames hnet).1 hacyclic,
    (recalculate_isFixedPoint hnames hspiral).2 hcyclic⟩

end Formulary
