import Formulary.Name.Candidate
import Formulary.Name.Registry
import Formulary.Solution.Calculation

/-!
# Solutions

A solution is a list of parameters and a list of calculations. Its registry of names holds the
declared names first and then the candidates of every formula.
-/

set_option autoImplicit false
set_option relaxedAutoImplicit false

namespace Formulary

open Formulary.Name

/-- Quantities that a user entered, by the identity of the parameter; filter selections stand among
them. -/
abbrev Overrides := List (String × Quantity)

namespace Overrides

/-- The quantity entered for a parameter. -/
def find? (overrides : Overrides) (id : String) : Option Quantity :=
  overrides.lookup id

/-- The number entered for a parameter. -/
def reading? (overrides : Overrides) (id : String) : Option Float :=
  (overrides.find? id).bind Quantity.reading

/-- Enters a quantity for a parameter, in place of an earlier one. -/
def enter (overrides : Overrides) (id : String) (quantity : Quantity) : Overrides :=
  (id, quantity) :: overrides.filter (·.1 != id)

/-- Takes back what was entered for a parameter. -/
def clear (overrides : Overrides) (id : String) : Overrides :=
  overrides.filter (·.1 != id)

end Overrides

/-- A set of parameters and calculations. -/
structure Solution where
  parameters : List Parameter
  calculations : List Calculation
  deriving Repr, DecidableEq

namespace Solution

/-- The names that the records of a solution declare, parameters first. -/
def declaredNames (solution : Solution) : List String :=
  solution.parameters.map (·.name) ++ solution.calculations.map (·.name)

/-- The formulas of a solution, parameters first. -/
def formulas (solution : Solution) : List String :=
  solution.parameters.filterMap (·.formulaText) ++
    solution.calculations.filterMap (·.formulaText)

/-- The registry of a solution: the declared names, then the candidates of every formula. -/
def registry (solution : Solution) (reserved : List String) : Registry :=
  let declared := solution.declaredNames.foldl Registry.declare .empty
  (solution.formulas.flatMap fun formula ↦ candidates formula reserved).foldl
    Registry.discover declared

end Solution

end Formulary
