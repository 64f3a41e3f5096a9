import Formulary.Log
import Formulary.Preview
import Formulary.References.Order

/-!
# Recalculating a solution

All calculations are evaluated anew in the order of their references, each with the fresh results of
those that it refers to. What lies on a cycle of references is a failure and is not evaluated. The
calculations keep their places, and only their results and states change.
-/

set_option autoImplicit false
set_option relaxedAutoImplicit false

namespace Formulary

/-! ### One after the other -/

/-- How far a recalculation has come: the known values, the numbers found so far by the positions of
their calculations, and the notices, latest first. -/
structure Progress where
  ledger : Ledger
  values : List (Nat × Float)
  notices : List Notice

/-- Evaluates the calculation at a position. -/
def Progress.step (settings : Settings) (calculations : List Calculation) (progress : Progress)
    (position : Nat) : Progress :=
  match calculations[position]? with
  | none => progress
  | some calculation =>
    match evaluateIn settings progress.ledger calculation.formula with
    | .ok value =>
      { progress with
        ledger := progress.ledger.insertCalculation calculation.name value
        values := (position, value) :: progress.values }
    | .error error =>
      { progress with notices := .calculationFailed calculation.name error :: progress.notices }

/-- Evaluates the calculations at some positions in turn. -/
def runCalculations (settings : Settings) (calculations : List Calculation) (ledger : Ledger)
    (positions : List Nat) : Progress :=
  positions.foldl (Progress.step settings calculations) ⟨ledger, [], []⟩

/-- The outcome at a position: the number found there, or a failure. -/
def Progress.outcome (progress : Progress) (position : Nat) : Outcome :=
  match progress.values.lookup position with
  | some value => .value value
  | none => .failure

/-! ### All together -/

/-- A calculation with a new outcome. -/
def Calculation.withOutcome (calculation : Calculation) (outcome : Outcome) : Calculation :=
  { calculation with status := some outcome.status, result := some outcome }

/-- Recalculated calculations and what was reported. -/
structure Recalculation where
  calculations : List Calculation
  log : List Notice
  deriving Repr

/-- The notice about calculations on cycles, if there are any. -/
def cycleNotices (evaluation : EvaluationOrder) : List Notice :=
  if evaluation.isAcyclic then [] else [.cycleSkipped evaluation.cyclic.length]

/-- Recalculates a solution with the values that a user entered. -/
def recalculate (settings : Settings) (solution : Solution) (overrides : Overrides) :
    Recalculation :=
  let evaluation := evaluationOrder solution.parameters solution.calculations
  let progress := runCalculations settings solution.calculations
    (.ofParameters solution.parameters overrides) evaluation.order
  { calculations := solution.calculations.mapIdx fun position calculation ↦
      calculation.withOutcome (progress.outcome position)
    log := progress.notices.reverse ++ cycleNotices evaluation }

end Formulary
