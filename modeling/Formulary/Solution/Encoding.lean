import Formulary.Json.Value
import Formulary.Solution.Basic

/-!
# Writing solutions as JSON

The JSON form of each domain type. Optional fields are left out where there is nothing to write,
with the exception of the fields of option rows and rules, which are null then. Numbers are written
as doubles.
-/

set_option autoImplicit false
set_option relaxedAutoImplicit false

namespace Formulary

open Formulary.Json

/-! ### Small types -/

/-- The JSON form of a quantity. -/
def Quantity.encode : Quantity → Value
  | .number value => .ofDouble value
  | .text value => .text value

/-- The JSON form of a category. -/
def Category.encode : Category → Value
  | .plain name => .text name
  | .coloured name colour =>
    .ofFields [("name", some (.text name)), ("color", some (.text colour))]

/-- The name of a display. -/
def Display.label : Display → String
  | .simple => "simple"
  | .range => "range"
  | .dropdown => "dropdown"
  | .filter => "filter"
  | .conditional => "conditional"

/-- The name of an access. -/
def Access.label : Access → String
  | .input => "input"
  | .fixed => "static"
  | .hidden => "not_viewable"

/-- The JSON form of an interface. -/
def Interface.encode : Interface → Value
  | .plain access => .text access.label
  | .detailed access category isAdvanced =>
    .ofFields [("type", some (.text access.label)), ("category", some (.text category)),
      ("is_advanced", some (.boolean isAdvanced))]

/-- The JSON form of what may be missing, null where it is. -/
def encodeOption {Target : Type} (encode : Target → Value) : Option Target → Value
  | some value => encode value
  | none => .null

/-- The JSON form of a row of an option table. -/
def DropdownOption.encode (option : DropdownOption) : Value :=
  .ofFields [("key", some (encodeOption .text option.key)),
    ("value", some (encodeOption Quantity.encode option.value))]

/-- The JSON form of a rule. -/
def ConditionalRule.encode (rule : ConditionalRule) : Value :=
  .ofFields [("condition", some (.text rule.condition)),
    ("value", some (encodeOption Quantity.encode rule.value))]

/-- The name of a status. -/
def Status.label : Status → String
  | .valid => "valid"
  | .error => "error"
  | .pending => "pending"

/-- The JSON form of an outcome. -/
def Outcome.encode : Outcome → Value
  | .value number => .ofDouble number
  | .failure => .text "Error"

/-! ### Records -/

/-- The JSON form of a parameter. -/
def Parameter.encode (parameter : Parameter) : Value :=
  .ofFields [
    ("id", some (.text parameter.id)),
    ("name", some (.text parameter.name)),
    ("display_type", some (.text parameter.display.label)),
    ("user_interface", some parameter.interface.encode),
    ("unit", parameter.unit.map .text),
    ("value", parameter.value.map Quantity.encode),
    ("test_value", parameter.testValue.map Quantity.encode),
    ("default_value", parameter.defaultValue.map Quantity.encode),
    ("range_min", parameter.rangeMin.map Quantity.encode),
    ("range_max", parameter.rangeMax.map Quantity.encode),
    ("dropdown_options", some (.list (parameter.options.map DropdownOption.encode))),
    ("conditional_rules", some (.list (parameter.rules.map ConditionalRule.encode))),
    ("formula", parameter.formula.map .text),
    ("description", parameter.description.map .text),
    ("category", parameter.category.map Category.encode)]

/-- The JSON form of a calculation. -/
def Calculation.encode (calculation : Calculation) : Value :=
  .ofFields [
    ("id", some (.text calculation.id)),
    ("name", some (.text calculation.name)),
    ("formula", some (.text calculation.formula)),
    ("category", calculation.category.map Category.encode),
    ("units", calculation.units.map .text),
    ("description", calculation.description.map .text),
    ("output", calculation.output.map .boolean),
    ("level", calculation.level.map Quantity.encode),
    ("status", calculation.status.map fun status ↦ .text status.label),
    ("display_result", calculation.displayResult.map .boolean),
    ("result", calculation.result.map Outcome.encode)]

/-- The JSON form of a solution. -/
def Solution.encode (solution : Solution) : Value :=
  .ofFields [
    ("parameters", some (.list (solution.parameters.map Parameter.encode))),
    ("calculations", some (.list (solution.calculations.map Calculation.encode)))]

end Formulary
