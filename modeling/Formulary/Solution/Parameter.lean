import Formulary.Name.Tier
import Formulary.Solution.Category
import Formulary.Solution.Quantity

/-!
# Parameters

A parameter is a named value that a user enters or a company fixes. How it is shown is its
`Display`, who may edit it its `Interface`. `Parameter.storedValue` is the number recorded on the
parameter itself, and `Parameter.formulaText` the formula of a derived one.
-/

set_option autoImplicit false
set_option relaxedAutoImplicit false

namespace Formulary

open Formulary.Text

/-! ### Parts of a parameter -/

/-- How a parameter is shown. A filter selects rows of the option tables of dropdowns; a conditional
parameter carries rules and is never named in formulas. -/
inductive Display where
  | simple
  | range
  | dropdown
  | filter
  | conditional
  deriving Repr, DecidableEq

/-- Who may see and edit a parameter: users enter an input, the company owns the other two. -/
inductive Access where
  | input
  | fixed
  | hidden
  deriving Repr, DecidableEq

/-- Whether the company owns a parameter. -/
def Access.isCompany : Access → Bool
  | .input => false
  | .fixed => true
  | .hidden => true

/-- The access to a parameter as it is recorded: on its own, or with further details. -/
inductive Interface where
  | plain (access : Access)
  | detailed (access : Access) (category : String) (isAdvanced : Bool)
  deriving Repr, DecidableEq

/-- The access that an interface grants. -/
def Interface.access : Interface → Access
  | .plain access => access
  | .detailed access _ _ => access

/-- A row of an option table. -/
structure DropdownOption where
  key : Option String
  value : Option Quantity
  deriving Repr, DecidableEq

/-- What a rule may name an option by: its value if that is not blank, and its key otherwise. -/
def DropdownOption.identity (option : DropdownOption) : Option String :=
  match option.value with
  | some value => if value.isBlank then option.key else some value.display
  | none => option.key

/-- A rule of a conditional parameter. -/
structure ConditionalRule where
  condition : String
  value : Option Quantity
  deriving Repr, DecidableEq

/-! ### Parameters -/

/-- A parameter of a solution. -/
structure Parameter where
  id : String
  name : String
  display : Display := .simple
  interface : Interface := .plain .input
  unit : Option String := none
  value : Option Quantity := none
  testValue : Option Quantity := none
  defaultValue : Option Quantity := none
  rangeMin : Option Quantity := none
  rangeMax : Option Quantity := none
  options : List DropdownOption := []
  rules : List ConditionalRule := []
  formula : Option String := none
  description : Option String := none
  category : Option Category := none
  deriving Repr, DecidableEq

instance : Name.Named Parameter where
  identity parameter := parameter.id
  name parameter := parameter.name

/-- A text without the white space at its ends, unless nothing is left. -/
def trimmedText (text : String) : Option String :=
  let trimmed := trim text.toList
  if trimmed.isEmpty then none else some (String.ofList trimmed)

namespace Parameter

/-- The access to a parameter. -/
def access (parameter : Parameter) : Access :=
  parameter.interface.access

/-- Whether a parameter is a filter. -/
def isFilter (parameter : Parameter) : Bool :=
  parameter.display == .filter

/-- The formula of a derived parameter. -/
def formulaText (parameter : Parameter) : Option String :=
  parameter.formula.bind trimmedText

/-- The quantities recorded on a parameter in the order of preference: what the company owns has an
authored value, what users enter a test value first. -/
def recorded (parameter : Parameter) : List (Option Quantity) :=
  if parameter.access.isCompany then
    [parameter.value, parameter.testValue, parameter.defaultValue]
  else [parameter.testValue, parameter.defaultValue, parameter.value]

/-- The first number recorded on a parameter. -/
def storedValue (parameter : Parameter) : Option Float :=
  parameter.recorded.findSome? fun quantity ↦ quantity.bind Quantity.reading

end Parameter

end Formulary
