import Formulary.Json.Value
import Formulary.Number.Power

/-!
# Decoding JSON values

A decoder takes a JSON value to a value of the domain, or to none where the shape does not fit.
Records are read through `Fields`: a record is an object, whose unknown fields are ignored, or a
list of the fields in their order, which may end early but holds nothing further.
-/

set_option autoImplicit false
set_option relaxedAutoImplicit false

namespace Formulary.Json

open Formulary.Number (twoTo)

/-- A reading of JSON values of one shape. -/
abbrev Decoder (Target : Type) := Value → Option Target

namespace Decoder

variable {Target : Type}

/-- A text and nothing else. -/
def text : Decoder String
  | .text value => some value
  | _ => none

/-- A truth value and nothing else. -/
def boolean : Decoder Bool
  | .boolean value => some value
  | _ => none

/-- A number, as a double. -/
def double : Decoder Float
  | .number value => some value.toDouble
  | _ => none

/-- A non-negative integer of 32 bits, written as an integer. -/
def natural32 : Decoder Nat
  | .number (.integer value) => if 0 ≤ value ∧ value < twoTo 32 then some value.toNat else none
  | _ => none

/-- A list of values of one shape. -/
def list (item : Decoder Target) : Decoder (List Target)
  | .list items => items.mapM item
  | _ => none

/-- An object with values of one shape. -/
def table (entry : Decoder Target) : Decoder (Table Target)
  | .object fields => fields.mapM fun (name, value) ↦ (entry value).map (name, ·)
  | _ => none

/-- A value that may be null. -/
def nullable (inner : Decoder Target) : Decoder (Option Target)
  | .null => some none
  | value => (inner value).map some

/-- The name of a choice: a text, or an object whose one field has that name and is null. -/
def choice : Decoder String
  | .text name => some name
  | .object [(name, .null)] => some name
  | _ => none

end Decoder

/-! ### Records -/

/-- The fields of a record, by name or by position. -/
inductive Fields where
  | named (fields : List (String × Value))
  | positional (items : List Value)

/-- The fields of a record that has so many. -/
def Fields.of (count : Nat) : Value → Option Fields
  | .object fields => some (.named fields)
  | .list items => if items.length ≤ count then some (.positional items) else none
  | _ => none

/-- The value of a field, if it is given. -/
def Fields.get? (fields : Fields) (position : Nat) (name : String) : Option Value :=
  match fields with
  | .named entries => Table.find? name entries
  | .positional items => items[position]?

variable {Target : Type}

/-- A field that must be given. -/
def Fields.required (fields : Fields) (position : Nat) (name : String) (decode : Decoder Target) :
    Option Target :=
  (fields.get? position name).bind decode

/-- A field that has a default. -/
def Fields.withDefault (fields : Fields) (position : Nat) (name : String) (standard : Target)
    (decode : Decoder Target) : Option Target :=
  match fields.get? position name with
  | some value => decode value
  | none => some standard

/-- A field that may be missing or null. -/
def Fields.optional (fields : Fields) (position : Nat) (name : String) (decode : Decoder Target) :
    Option (Option Target) :=
  fields.withDefault position name none (Decoder.nullable decode)

end Formulary.Json
