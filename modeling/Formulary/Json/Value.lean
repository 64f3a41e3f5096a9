import Formulary.Number.Numeral
import Formulary.Table

/-!
# JSON values

A JSON number keeps apart whether it was written as an integer of 64 bits or in any other way;
objects are tables, so that a value has one form only. `Value.ofDouble` is the JSON form of a
double, which is null where the double is not finite.
-/

set_option autoImplicit false
set_option relaxedAutoImplicit false

namespace Formulary.Json

/-- A number: an integer of 64 bits, signed or unsigned, or a double. -/
inductive Number where
  | integer (value : Int)
  | double (value : Float)
  deriving Repr, DecidableEq

/-- The double nearest to a number. -/
def Number.toDouble : Number → Float
  | .integer value => Float.ofInt value
  | .double value => value

/-- A JSON value. -/
inductive Value where
  | null
  | boolean (value : Bool)
  | number (value : Number)
  | text (value : String)
  | list (items : List Value)
  | object (fields : List (String × Value))
  deriving Repr, Inhabited

namespace Value

/-- The JSON form of a double: null where it is not finite. -/
def ofDouble (value : Float) : Value :=
  if value.isFinite then .number (.double value) else .null

/-- The field of an object. -/
def field? (name : String) : Value → Option Value
  | .object fields => Table.find? name fields
  | _ => none

/-- Whether a value is null. -/
def isNull : Value → Bool
  | .null => true
  | _ => false

/-- The object with some fields; those without a value are left out. -/
def ofFields (fields : List (String × Option Value)) : Value :=
  .object (Table.ofEntries (fields.filterMap fun (name, value?) ↦ value?.map (name, ·)))

end Value

end Formulary.Json
