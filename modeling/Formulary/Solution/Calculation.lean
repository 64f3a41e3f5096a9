import Formulary.Solution.Parameter

/-!
# Calculations

A calculation is a named formula with its last outcome. `Calculation.migrated` brings one that was
saved before categories had colours to the present form.
-/

set_option autoImplicit false
set_option relaxedAutoImplicit false

namespace Formulary

open Formulary.Text

/-! ### Parts of a calculation -/

/-- The state of a calculation. -/
inductive Status where
  | valid
  | error
  | pending
  deriving Repr, DecidableEq

/-- What evaluating a formula gave: a number or a failure. -/
inductive Outcome where
  | value (number : Float)
  | failure
  deriving Repr, DecidableEq

/-- The number of an outcome, if it is finite. -/
def Outcome.number? : Outcome → Option Float
  | .value number => Number.finite? number
  | .failure => none

/-- The status that an outcome gives to its calculation. -/
def Outcome.status (outcome : Outcome) : Status :=
  if outcome.number?.isSome then .valid else .error

/-! ### Calculations -/

/-- A calculation of a solution. -/
structure Calculation where
  id : String
  name : String
  formula : String := ""
  category : Option Category := none
  units : Option String := none
  description : Option String := none
  output : Option Bool := none
  level : Option Quantity := none
  status : Option Status := none
  displayResult : Option Bool := none
  result : Option Outcome := none
  deriving Repr, DecidableEq

instance : Name.Named Calculation where
  identity calculation := calculation.id
  name calculation := calculation.name

namespace Calculation

/-- The formula of a calculation without the white space at its ends, unless nothing is left. -/
def formulaText (calculation : Calculation) : Option String :=
  trimmedText calculation.formula

/-- Whether the result of a calculation is shown. -/
def isDisplayed (calculation : Calculation) : Bool :=
  calculation.displayResult == some true

/-- The last result of a calculation, if it is a finite number. -/
def priorResult (calculation : Calculation) : Option Float :=
  calculation.result.bind Outcome.number?

/-! ### Migration -/

/-- The colour of a category that was saved without one. -/
def standardColour (category : String) : String :=
  match String.ofList (lower category.toList) with
  | "financial" => "green"
  | "performance" => "blue"
  | "efficiency" => "yellow"
  | "operational" => "purple"
  | _ => "gray"

/-- Whether a calculation has the present form: a category with a colour field and a name, and a
decision whether its result is shown. -/
def isCurrent (calculation : Calculation) : Bool :=
  match calculation.category, calculation.displayResult with
  | some (.coloured name _), some _ => !name.isEmpty
  | _, _ => false

/-- The name of the category that migration gives. -/
def migratedName : Option Category → String
  | some (.plain name) => name
  | some (.coloured name _) => if name.isEmpty then "financial" else name
  | none => "financial"

/-- The category that migration gives: the name and the colour are kept where there are any. -/
def migratedCategory (category : Option Category) : Category :=
  let name := migratedName category
  match category with
  | some (.coloured _ colour) =>
    .coloured name (if colour.isEmpty then standardColour name else colour)
  | _ => .coloured name (standardColour name)

/-- A calculation in the present form. -/
def migrated (calculation : Calculation) : Calculation :=
  if calculation.isCurrent then calculation
  else
    { calculation with
      category := some (migratedCategory calculation.category)
      displayResult := some (calculation.displayResult.getD false) }

end Calculation

end Formulary
