import Formulary.Formula.Parser
import Formulary.References.Order
import Formulary.Settings.Basic
import Formulary.Solution.Basic
import Formulary.Text.LowerCase

/-!
# Reviewing a solution

A review looks for everything that an author should mend and reports it all at once: parameters
without what they need, formulas that are none or name what does not exist, and calculations that
refer to themselves or to each other in a circle. A `Finding` is a fault and the identity of the
record that has it.
-/

set_option autoImplicit false
set_option relaxedAutoImplicit false

namespace Formulary

open Formulary.Formula Formulary.Name Formulary.Text

/-! ### Findings -/

/-- What a fixed parameter lacks. -/
inductive MissingValue where
  | value
  | bounds
  | options
  deriving Repr, DecidableEq

/-- What is wrong with a record. -/
inductive Fault where
  | missingField
  | duplicateName (name : String)
  | missingValue (what : MissingValue)
  | emptyFormula
  | invalidFormula (error : SyntaxError)
  | unresolvedReference (token : String)
  | selfWord
  | selfReference (name : String)
  | circularReference (names : List String)
  deriving Repr, DecidableEq

/-- A fault of a record. -/
structure Finding where
  subject : String
  fault : Fault
  deriving Repr, DecidableEq

/-- The wording of what is missing. -/
def MissingValue.message : MissingValue → String
  | .value => "Static parameters with simple display require a value."
  | .bounds => "Static parameters with range display require both min and max values."
  | .options => "Static parameters with dropdown/filter display require options."

/-- The kind of a fault. -/
def Fault.label : Fault → String
  | .missingField => "MissingField"
  | .duplicateName _ => "DuplicateName"
  | .missingValue _ => "MissingValue"
  | .emptyFormula => "InvalidFormula"
  | .invalidFormula _ => "InvalidFormula"
  | .unresolvedReference _ => "UnresolvedReference"
  | .selfWord => "SelfReference"
  | .selfReference _ => "SelfReference"
  | .circularReference _ => "CircularReference"

/-- The wording of a fault. -/
def Fault.message : Fault → String
  | .missingField => "Name and unit are required fields."
  | .duplicateName name => "A parameter named \"" ++ name ++ "\" already exists."
  | .missingValue what => what.message
  | .emptyFormula => "Formula is empty."
  | .invalidFormula error => "Invalid formula: " ++ (EvaluationError.syntaxError error).message
  | .unresolvedReference token => s!"'{token}' does not match any parameter or calculation."
  | .selfWord => "Formula cannot reference itself (self/this)."
  | .selfReference name => s!"'{name}' references itself."
  | .circularReference names =>
    "Circular reference between " ++ String.intercalate ", " names ++ "."

/-! ### Parameters -/

/-- Whether a text is missing or blank. -/
def isMissingText (text : Option String) : Bool :=
  text.all fun text ↦ isBlank text.toList

/-- Whether a quantity is missing or blank. -/
def isMissingQuantity (quantity : Option Quantity) : Bool :=
  quantity.all Quantity.isBlank

/-- A parameter has a name and a unit. -/
def requiredFault (parameter : Parameter) : Option Fault :=
  if isBlankName parameter.name || isMissingText parameter.unit then some .missingField else none

/-- What two names must not share: the letters between the white space at the ends, in whatever
case. -/
def comparableName (name : String) : List Char :=
  lower (trim name.toList)

/-- No other parameter has the name of a parameter; one with its identity is the parameter
itself. -/
def duplicateFault (existing : List Parameter) (parameter : Parameter) : Option Fault :=
  let wanted := comparableName parameter.name
  if !wanted.isEmpty && (existing.any fun other ↦
      other.id != parameter.id && comparableName other.name == wanted) then
    some (.duplicateName (String.ofList (trim parameter.name.toList)))
  else none

/-- A fixed parameter carries the value that its display needs. -/
def fixedValueFault (parameter : Parameter) : Option Fault :=
  if parameter.access = .fixed then
    match parameter.display with
    | .simple => if isMissingQuantity parameter.value then some (.missingValue .value) else none
    | .range =>
      if isMissingQuantity parameter.rangeMin || isMissingQuantity parameter.rangeMax then
        some (.missingValue .bounds)
      else none
    | .dropdown => if parameter.options.isEmpty then some (.missingValue .options) else none
    | .filter => if parameter.options.isEmpty then some (.missingValue .options) else none
    | .conditional => none
  else none

/-- The faults of a parameter among those that exist already. -/
def parameterFaults (existing : List Parameter) (parameter : Parameter) : List Fault :=
  [requiredFault parameter, duplicateFault existing parameter,
    fixedValueFault parameter].filterMap id

/-- Reviews a parameter that is to join others. -/
def reviewParameter (existing : List Parameter) (parameter : Parameter) : List Finding :=
  (parameterFaults existing parameter).map (⟨parameter.id, ·⟩)

/-- Reviews parameters, each among those before it. -/
def reviewParameters (parameters : List Parameter) : List Finding :=
  (parameters.mapIdx fun position parameter ↦
    reviewParameter (parameters.take position) parameter).flatten

/-! ### Formulas -/

/-- A formula is there and can be parsed once the registered names in it are replaced. -/
def syntaxFault (naming : Substitution) (calculation : Calculation) : Option Fault :=
  match calculation.formulaText with
  | none => some .emptyFormula
  | some formula =>
    match parse (naming.replace formula.toList) with
    | .ok _ => none
    | .error error => some (.invalidFormula error)

/-- Whether a token names a parameter or a calculation at one of the exact tiers. -/
def isResolved (solution : Solution) (token : String) : Bool :=
  (resolve token solution.parameters).isSome || (resolve token solution.calculations).isSome

/-- Whether the wording of a finding quotes a token. -/
def isReported (findings : List Finding) (token : String) : Bool :=
  findings.any fun finding ↦ occursIn s!"'{token}'".toList finding.fault.message.toList

/-- Reviews the names in the formula of a calculation: a token that names nothing is reported unless
a finding quotes it already. -/
def reviewNames (reserved : List String) (solution : Solution) (calculation : Calculation) :
    List Finding :=
  (candidates calculation.formula reserved).foldl (fun findings token ↦
    if isResolved solution token || isReported findings token then findings
    else findings ++ [⟨calculation.id, .unresolvedReference token⟩]) []

/-- Reviews the formula of a calculation; the names in it count only if it can be parsed. -/
def reviewFormula (reserved : List String) (solution : Solution) (naming : Substitution)
    (calculation : Calculation) : List Finding :=
  match syntaxFault naming calculation with
  | some fault => [⟨calculation.id, fault⟩]
  | none => reviewNames reserved solution calculation

/-- Reviews the formulas of a solution. -/
def reviewFormulas (reserved : List String) (solution : Solution) : List Finding :=
  let naming := (solution.registry reserved).substitution
  solution.calculations.flatMap (reviewFormula reserved solution naming)

/-! ### References -/

/-- Reviews formulas for the words by which they would mention themselves. -/
def reviewSelfWords (calculations : List Calculation) : List Finding :=
  (calculations.filter fun calculation ↦
    containsWord calculation.formula "self" || containsWord calculation.formula "this").map
      fun calculation ↦ ⟨calculation.id, .selfWord⟩

/-- The findings of a cycle: a calculation that refers to itself, or each one of a circle. -/
def cycleFindings (calculations : List Calculation) (cycle : List Nat) : List Finding :=
  let members := cycle.filterMap fun position ↦ calculations[position]?
  match members with
  | [only] => [⟨only.id, .selfReference only.name⟩]
  | several => several.map fun member ↦ ⟨member.id, .circularReference (several.map (·.name))⟩

/-- Reviews the references between calculations. -/
def reviewReferences (solution : Solution) : List Finding :=
  reviewSelfWords solution.calculations ++
    (evaluationOrder solution.parameters solution.calculations).cycles.flatMap
      (cycleFindings solution.calculations)

/-! ### Solutions -/

/-- Reviews a solution: its parameters, its formulas and its references. -/
def reviewSolution (settings : Settings) (solution : Solution) : List Finding :=
  reviewParameters solution.parameters ++
    reviewFormulas settings.reservedWords solution ++ reviewReferences solution

end Formulary
