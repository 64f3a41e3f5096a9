import Formulary.Json.Decoding
import Formulary.Request.Basic
import Formulary.Solution.Decoding
import Formulary.Solution.Encoding

/-!
# Requests as JSON

The JSON form of requests and its decoder. A node leaves out the fields that it does not use.
-/

set_option autoImplicit false
set_option relaxedAutoImplicit false

namespace Formulary

open Formulary.Json

/-- The kind of a name. -/
def NodeKind.ofName? : String → Option NodeKind
  | "USER" => some .user
  | "COMPANY" => some .company
  | "CALCULATION" => some .calculation
  | _ => none

/-- The name of a kind. -/
def NodeKind.label : NodeKind → String
  | .user => "USER"
  | .company => "COMPANY"
  | .calculation => "CALCULATION"

/-- A kind. -/
def NodeKind.decode : Decoder NodeKind := fun value ↦
  (Decoder.choice value).bind NodeKind.ofName?

/-- A node. -/
def Node.decode : Decoder Node := fun value ↦ do
  let fields ← Fields.of 9 value
  return {
    name := ← fields.required 0 "name" Decoder.text
    kind := ← fields.required 1 "type" NodeKind.decode
    value := ← fields.optional 2 "value" Decoder.double
    formula := ← fields.optional 3 "formula" Decoder.text
    unit := ← fields.optional 4 "unit" Decoder.text
    description := ← fields.optional 5 "description" Decoder.text
    output := ← fields.optional 6 "output" Decoder.boolean
    level := ← fields.optional 7 "level" Decoder.double
    category := ← fields.optional 8 "category" Category.decode }

/-- A request. -/
def Request.decode : Decoder Request := fun value ↦ do
  let fields ← Fields.of 3 value
  return {
    inputs := ← fields.required 0 "inputs" (Decoder.table Decoder.double)
    nodes := ← fields.required 1 "parameters" (Decoder.list Node.decode)
    target := ← fields.required 2 "target" (Decoder.list Decoder.text) }

/-- The JSON form of a node. -/
def Node.encode (node : Node) : Value :=
  .ofFields [
    ("name", some (.text node.name)),
    ("type", some (.text node.kind.label)),
    ("value", node.value.map .ofDouble),
    ("formula", node.formula.map .text),
    ("unit", node.unit.map .text),
    ("description", node.description.map .text),
    ("output", node.output.map .boolean),
    ("level", node.level.map .ofDouble),
    ("category", node.category.map Category.encode)]

/-- The JSON form of a request. -/
def Request.encode (request : Request) : Value :=
  .ofFields [
    ("inputs", some (.object (request.inputs.map fun (name, value) ↦ (name, .ofDouble value)))),
    ("parameters", some (.list (request.nodes.map Node.encode))),
    ("target", some (.list (request.target.map .text)))]

end Formulary
