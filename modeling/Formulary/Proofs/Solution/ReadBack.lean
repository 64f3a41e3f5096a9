import Formulary.Proofs.Solution.WrittenFields
import Formulary.Request.Json

/-!
# Reading back what was written

The JSON form of a solution or a request holds all of it, as long as its numbers are finite: what is
not finite is written as null, and so it is lost. The small types come first, each of which is told
from the others of its place by the kind of JSON value that it is written as. The records follow
from their fields, with the numbers in them as the only condition. The main statement, `reads_back`,
is about whole solutions and whole requests.
-/

set_option autoImplicit false
set_option relaxedAutoImplicit false

namespace Formulary

open Formulary.Json

/-! ### Numbers -/

/-- A quantity is a text or a finite number. -/
def Quantity.IsFinite : Quantity → Prop
  | .number value => value.isFinite = true
  | .text _ => True

/-- An outcome is a failure or a finite number. -/
def Outcome.IsFinite : Outcome → Prop
  | .value number => number.isFinite = true
  | .failure => True

theorem double_ofDouble_iff (value : Float) :
    Decoder.double (.ofDouble value) = some value ↔ value.isFinite = true := by
  rw [Value.ofDouble]
  cases value.isFinite <;> simp [Decoder.double, Number.toDouble]

theorem Quantity.decode_encode_iff (quantity : Quantity) :
    Quantity.decode quantity.encode = some quantity ↔ quantity.IsFinite := by
  cases quantity with
  | number value =>
    rw [encode, Value.ofDouble, IsFinite]
    cases value.isFinite <;> simp [decode, Number.toDouble]
  | text => exact iff_of_true rfl trivial

theorem Outcome.decode_encode_iff (outcome : Outcome) :
    Outcome.decode outcome.encode = some outcome ↔ outcome.IsFinite := by
  cases outcome with
  | value number =>
    rw [encode, Value.ofDouble, IsFinite]
    cases hfinite : number.isFinite <;> simp [decode, Number.toDouble, Number.finite?, hfinite]
  | failure => exact iff_of_true rfl trivial

/-! ### Names of choices -/

@[simp] theorem Display.decode_label (display : Display) :
    Display.decode (.text display.label) = some display := by
  cases display <;> rfl

theorem Status.decode_label (status : Status) :
    Status.decode (.text status.label) = some status := by
  cases status <;> rfl

@[simp] theorem NodeKind.decode_label (kind : NodeKind) :
    NodeKind.decode (.text kind.label) = some kind := by
  cases kind <;> rfl

/-! ### Bare and detailed forms -/

/-- A bare name is a text and a name with a colour an object. -/
theorem Category.decode_encode (category : Category) :
    Category.decode category.encode = some category := by
  cases category <;> rfl

/-- A bare access is a text. Details are an object, which no name of an access is: the form of an
object that names a choice has one field. -/
@[simp] theorem Interface.decode_encode (interface : Interface) :
    Interface.decode interface.encode = some interface := by
  cases interface with
  | plain access => cases access <;> rfl
  | detailed access => cases access <;> rfl

/-! ### Fields that may be missing -/

@[simp] theorem text_text (text : String) : Decoder.text (.text text) = some text :=
  rfl

@[simp] theorem readMissing_text (text? : Option String) :
    readMissing Decoder.text (text?.map .text) = some text? :=
  (readMissing_map_iff rfl text?).mpr fun _ _ ↦ rfl

@[simp] theorem readMissing_boolean (truth? : Option Bool) :
    readMissing Decoder.boolean (truth?.map .boolean) = some truth? :=
  (readMissing_map_iff rfl truth?).mpr fun _ _ ↦ rfl

@[simp] theorem readMissing_category (category? : Option Category) :
    readMissing Category.decode (category?.map Category.encode) = some category? :=
  (readMissing_map_iff rfl category?).mpr fun category _ ↦ category.decode_encode

@[simp] theorem readMissing_status (status? : Option Status) :
    readMissing Status.decode (status?.map fun status ↦ .text status.label) = some status? :=
  (readMissing_map_iff rfl status?).mpr fun status _ ↦ status.decode_label

theorem readMissing_double_iff (value? : Option Float) :
    readMissing Decoder.double (value?.map .ofDouble) = some value? ↔
      ∀ value, value? = some value → value.isFinite = true := by
  simp only [readMissing_map_iff (show Decoder.double .null = none from rfl), double_ofDouble_iff]

theorem readMissing_quantity_iff (quantity? : Option Quantity) :
    readMissing Quantity.decode (quantity?.map Quantity.encode) = some quantity? ↔
      ∀ quantity, quantity? = some quantity → quantity.IsFinite := by
  simp only [readMissing_map_iff (show Quantity.decode .null = none from rfl),
    Quantity.decode_encode_iff]

theorem readMissing_outcome_iff (outcome? : Option Outcome) :
    readMissing Outcome.decode (outcome?.map Outcome.encode) = some outcome? ↔
      ∀ outcome, outcome? = some outcome → outcome.IsFinite := by
  simp only [readMissing_map_iff (show Outcome.decode .null = none from rfl),
    Outcome.decode_encode_iff]

/-- It makes no difference whether what is missing is written as null or left out. -/
theorem readMissing_encodeOption {Target : Type} (decode : Decoder Target)
    (encode : Target → Value) (item? : Option Target) :
    readMissing decode (some (encodeOption encode item?)) =
      readMissing decode (item?.map encode) := by
  cases item? <;> rfl

/-! ### Rows of tables and rules -/

theorem DropdownOption.decode_encode_iff (option : DropdownOption) :
    DropdownOption.decode option.encode = some option ↔
      ∀ quantity, option.value = some quantity → quantity.IsFinite := by
  rw [← readMissing_quantity_iff]
  obtain ⟨key, value⟩ := option
  rw [decode, encode, of_ofFields, Option.bind_eq_bind, Option.bind_some]
  simp [readMissing_encodeOption, Option.bind_eq_some_iff]

theorem ConditionalRule.decode_encode_iff (rule : ConditionalRule) :
    ConditionalRule.decode rule.encode = some rule ↔
      ∀ quantity, rule.value = some quantity → quantity.IsFinite := by
  rw [← readMissing_quantity_iff]
  obtain ⟨condition, value⟩ := rule
  rw [decode, encode, of_ofFields, Option.bind_eq_bind, Option.bind_some]
  simp [readMissing_encodeOption, Option.bind_eq_some_iff]

/-! ### Parameters and calculations -/

/-- The quantities that a parameter may have: those of its own, and one for each row of its table
and each of its rules. -/
def Parameter.quantities (parameter : Parameter) : List (Option Quantity) :=
  [parameter.value, parameter.testValue, parameter.defaultValue, parameter.rangeMin,
      parameter.rangeMax] ++
    (parameter.options.map DropdownOption.value ++ parameter.rules.map ConditionalRule.value)

/-- All numbers of a parameter are finite. -/
def Parameter.IsFinite (parameter : Parameter) : Prop :=
  ∀ quantity, some quantity ∈ parameter.quantities → quantity.IsFinite

/-- All numbers of a calculation are finite. -/
def Calculation.IsFinite (calculation : Calculation) : Prop :=
  (∀ quantity, calculation.level = some quantity → quantity.IsFinite) ∧
    ∀ outcome, calculation.result = some outcome → outcome.IsFinite

theorem Parameter.isFinite_iff (parameter : Parameter) : parameter.IsFinite ↔
    ∀ quantity? ∈ parameter.quantities,
      ∀ quantity, quantity? = some quantity → quantity.IsFinite := by
  rw [IsFinite]
  exact ⟨fun hfinite _ hmember quantity hsome ↦ hfinite quantity (hsome ▸ hmember),
    fun hfinite quantity hmember ↦ hfinite _ hmember quantity rfl⟩

theorem Parameter.decode_encode_iff (parameter : Parameter) :
    Parameter.decode parameter.encode = some parameter ↔ parameter.IsFinite := by
  simp only [isFinite_iff, quantities, List.forall_mem_append, List.forall_mem_map]
  -- The parameter is opened, so that each field is read against its own variable and not against a
  -- projection of the whole record.
  obtain ⟨⟩ := parameter
  rw [decode, encode, of_ofFields, Option.bind_eq_bind, Option.bind_some]
  simp [Option.bind_eq_some_iff, list_map_iff, readMissing_quantity_iff,
    DropdownOption.decode_encode_iff, ConditionalRule.decode_encode_iff, and_assoc]

theorem Calculation.decode_encode_iff (calculation : Calculation) :
    Calculation.decode calculation.encode = some calculation ↔ calculation.IsFinite := by
  rw [IsFinite, ← readMissing_quantity_iff, ← readMissing_outcome_iff]
  obtain ⟨⟩ := calculation
  rw [decode, encode, of_ofFields, Option.bind_eq_bind, Option.bind_some]
  simp [Option.bind_eq_some_iff]

/-! ### Nodes -/

/-- The numbers of a node are finite. -/
def Node.IsFinite (node : Node) : Prop :=
  (∀ value, node.value = some value → value.isFinite = true) ∧
    ∀ level, node.level = some level → level.isFinite = true

theorem Node.decode_encode_iff (node : Node) :
    Node.decode node.encode = some node ↔ node.IsFinite := by
  rw [IsFinite, ← readMissing_double_iff, ← readMissing_double_iff]
  obtain ⟨⟩ := node
  rw [decode, encode, of_ofFields, Option.bind_eq_bind, Option.bind_some]
  simp [Option.bind_eq_some_iff]

/-! ### Solutions and requests -/

/-- All numbers of a solution are finite. -/
def Solution.IsFinite (solution : Solution) : Prop :=
  (∀ parameter ∈ solution.parameters, parameter.IsFinite) ∧
    ∀ calculation ∈ solution.calculations, calculation.IsFinite

/-- All numbers of a request are finite. -/
def Request.IsFinite (request : Request) : Prop :=
  (∀ input ∈ request.inputs, input.2.isFinite = true) ∧ ∀ node ∈ request.nodes, node.IsFinite

theorem Solution.decode_encode_iff (solution : Solution) :
    Solution.decode solution.encode = some solution ↔ solution.IsFinite := by
  obtain ⟨⟩ := solution
  rw [decode, encode, of_ofFields, Option.bind_eq_bind, Option.bind_some]
  simp [IsFinite, Option.bind_eq_some_iff, list_map_iff, Parameter.decode_encode_iff,
    Calculation.decode_encode_iff]

/-- A written solution has a list of parameters. -/
theorem hasParameterList_encode (solution : Solution) :
    hasParameterList solution.encode = true := by
  have hfield : solution.encode.field? "parameters" =
      some (.list (solution.parameters.map Parameter.encode)) := by
    exact (find?_ofEntries _ _).trans rfl
  rw [hasParameterList, hfield]

theorem readSolution_encode_iff (solution : Solution) :
    readSolution solution.encode = .ok solution ↔ solution.IsFinite := by
  rw [← Solution.decode_encode_iff, readSolution, if_pos (hasParameterList_encode solution)]
  cases Solution.decode solution.encode <;> simp

theorem Request.decode_encode_iff (request : Request) :
    Request.decode request.encode = some request ↔ request.IsFinite := by
  obtain ⟨inputs, nodes, target⟩ := request
  have htarget : Decoder.list Decoder.text (.list (target.map .text)) = some target :=
    (list_map_iff target).mpr fun _ _ ↦ rfl
  rw [decode, encode, of_ofFields, Option.bind_eq_bind, Option.bind_some]
  simp [IsFinite, Option.bind_eq_some_iff, list_map_iff, table_map_iff, htarget,
    double_ofDouble_iff, Node.decode_encode_iff]

/-- A solution is read back from its JSON form just as it was, and so is a request, if and only if
all its numbers are finite. -/
theorem reads_back :
    (∀ solution : Solution, readSolution solution.encode = .ok solution ↔ solution.IsFinite) ∧
    ∀ request : Request, Request.decode request.encode = some request ↔ request.IsFinite :=
  ⟨readSolution_encode_iff, Request.decode_encode_iff⟩

end Formulary
