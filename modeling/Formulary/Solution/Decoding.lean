import Formulary.Json.Decoding
import Formulary.Solution.Basic

/-!
# Reading solutions from JSON

One decoder per domain type. Bare texts and objects are told apart where a record may have either
shape: an interface is an access on its own or an object of details, a category a name or an object.
`readSolution` reads a whole solution and says whether a failure is a missing list of parameters.
-/

set_option autoImplicit false
set_option relaxedAutoImplicit false

namespace Formulary

open Formulary.Json

/-! ### Small types -/

/-- A quantity: a number or a text. -/
def Quantity.decode : Decoder Quantity
  | .number value => some (.number value.toDouble)
  | .text value => some (.text value)
  | _ => none

/-- A category: a name, or an object with a name and perhaps a colour. -/
def Category.decode : Decoder Category
  | .text name => some (.plain name)
  | .object fields => do
    let record := Fields.named fields
    let name ← record.required 0 "name" Decoder.text
    let colour ← record.withDefault 1 "color" "" Decoder.text
    return .coloured name colour
  | _ => none

/-- The display of a name; what is unknown is shown plainly. -/
def Display.ofName : String → Display
  | "range" => .range
  | "dropdown" => .dropdown
  | "filter" => .filter
  | "conditional" => .conditional
  | _ => .simple

/-- A display. -/
def Display.decode : Decoder Display := fun value ↦
  (Decoder.choice value).map Display.ofName

/-- The access of a name. -/
def Access.ofName? : String → Option Access
  | "input" => some .input
  | "static" => some .fixed
  | "not_viewable" => some .hidden
  | _ => none

/-- An access. -/
def Access.decode : Decoder Access := fun value ↦
  (Decoder.choice value).bind Access.ofName?

/-- An interface: an access on its own, or an object of details. -/
def Interface.decode : Decoder Interface := fun value ↦
  match Access.decode value, value with
  | some access, _ => some (.plain access)
  | none, .object fields => do
    let record := Fields.named fields
    let access ← record.withDefault 0 "type" .input Access.decode
    let category ← record.withDefault 1 "category" "" Decoder.text
    let isAdvanced ← record.withDefault 2 "is_advanced" false Decoder.boolean
    return .detailed access category isAdvanced
  | none, _ => none

/-- A row of an option table. -/
def DropdownOption.decode : Decoder DropdownOption := fun value ↦ do
  let fields ← Fields.of 2 value
  return {
    key := ← fields.optional 0 "key" Decoder.text
    value := ← fields.optional 1 "value" Quantity.decode }

/-- A rule of a conditional parameter. -/
def ConditionalRule.decode : Decoder ConditionalRule := fun value ↦ do
  let fields ← Fields.of 2 value
  return {
    condition := ← fields.withDefault 0 "condition" "" Decoder.text
    value := ← fields.optional 1 "value" Quantity.decode }

/-- The status of a name. -/
def Status.ofName? : String → Option Status
  | "valid" => some .valid
  | "error" => some .error
  | "pending" => some .pending
  | _ => none

/-- A status. -/
def Status.decode : Decoder Status := fun value ↦
  (Decoder.choice value).bind Status.ofName?

/-- An outcome: a number, or any text for a failure. -/
def Outcome.decode : Decoder Outcome
  | .number written => some ((Number.finite? written.toDouble).elim .failure .value)
  | .text _ => some .failure
  | _ => none

/-! ### Records -/

/-- A parameter. -/
def Parameter.decode : Decoder Parameter := fun value ↦ do
  let fields ← Fields.of 15 value
  return {
    id := ← fields.required 0 "id" Decoder.text
    name := ← fields.required 1 "name" Decoder.text
    display := ← fields.withDefault 2 "display_type" .simple Display.decode
    interface := ← fields.withDefault 3 "user_interface" (.plain .input) Interface.decode
    unit := ← fields.optional 4 "unit" Decoder.text
    value := ← fields.optional 5 "value" Quantity.decode
    testValue := ← fields.optional 6 "test_value" Quantity.decode
    defaultValue := ← fields.optional 7 "default_value" Quantity.decode
    rangeMin := ← fields.optional 8 "range_min" Quantity.decode
    rangeMax := ← fields.optional 9 "range_max" Quantity.decode
    options := ← fields.withDefault 10 "dropdown_options" []
      (Decoder.list DropdownOption.decode)
    rules := ← fields.withDefault 11 "conditional_rules" []
      (Decoder.list ConditionalRule.decode)
    formula := ← fields.optional 12 "formula" Decoder.text
    description := ← fields.optional 13 "description" Decoder.text
    category := ← fields.optional 14 "category" Category.decode }

/-- A calculation. -/
def Calculation.decode : Decoder Calculation := fun value ↦ do
  let fields ← Fields.of 11 value
  return {
    id := ← fields.required 0 "id" Decoder.text
    name := ← fields.required 1 "name" Decoder.text
    formula := ← fields.withDefault 2 "formula" "" Decoder.text
    category := ← fields.optional 3 "category" Category.decode
    units := ← fields.optional 4 "units" Decoder.text
    description := ← fields.optional 5 "description" Decoder.text
    output := ← fields.optional 6 "output" Decoder.boolean
    level := ← fields.optional 7 "level" Quantity.decode
    status := ← fields.optional 8 "status" Status.decode
    displayResult := ← fields.optional 9 "display_result" Decoder.boolean
    result := ← fields.optional 10 "result" Outcome.decode }

/-- A solution. -/
def Solution.decode : Decoder Solution := fun value ↦ do
  let fields ← Fields.of 2 value
  return {
    parameters := ← fields.required 0 "parameters" (Decoder.list Parameter.decode)
    calculations := ← fields.withDefault 1 "calculations" []
      (Decoder.list Calculation.decode) }

/-- Quantities entered by a user. -/
def Overrides.decode : Decoder Overrides :=
  Decoder.table Quantity.decode

/-! ### Whole solutions -/

/-- Why a JSON value is no solution: it lacks a list of parameters, or some part of it does not have
the shape that it should. -/
inductive ReadingError where
  | missingParameters
  | unexpectedShape
  deriving Repr, DecidableEq

/-- Whether a JSON value is an object with a list of parameters. -/
def hasParameterList (payload : Value) : Bool :=
  match payload.field? "parameters" with
  | some (.list _) => true
  | _ => false

/-- The solution that a JSON value holds. -/
def readSolution (payload : Value) : Except ReadingError Solution :=
  if hasParameterList payload then
    match Solution.decode payload with
    | some solution => .ok solution
    | none => .error .unexpectedShape
  else .error .missingParameters

end Formulary
