import Formulary.Json.Decoding
import Formulary.Settings.Basic

/-!
# Settings as JSON

The JSON form of settings and its decoder; what is not given keeps its standard.
-/

set_option autoImplicit false
set_option relaxedAutoImplicit false

namespace Formulary

open Formulary.Json

/-- The policy of a name. -/
def CollisionPolicy.ofName? : String → Option CollisionPolicy
  | "warn" => some .warn
  | "error" => some .refuse
  | "ignore" => some .ignore
  | _ => none

/-- The name of a policy. -/
def CollisionPolicy.label : CollisionPolicy → String
  | .warn => "warn"
  | .refuse => "error"
  | .ignore => "ignore"

/-- A policy. -/
def CollisionPolicy.decode : Decoder CollisionPolicy := fun value ↦
  (Decoder.choice value).bind CollisionPolicy.ofName?

/-- Settings; a field that is not given has its standard value. -/
def Settings.decode : Decoder Settings := fun value ↦ do
  let fields ← Fields.of 6 value
  return {
    selectorKeyword :=
      ← fields.withDefault 0 "filter_selector_keyword" standard.selectorKeyword Decoder.text
    resultPlaces :=
      ← fields.withDefault 1 "result_decimals" standard.resultPlaces Decoder.natural32
    percentUnit := ← fields.withDefault 2 "percent_unit" standard.percentUnit Decoder.text
    percentPlaces :=
      ← fields.withDefault 3 "percent_decimals" standard.percentPlaces Decoder.natural32
    reservedWords :=
      ← fields.withDefault 4 "reserved_tokens" standard.reservedWords
        (Decoder.list Decoder.text)
    collisionPolicy :=
      ← fields.withDefault 5 "collision_policy" standard.collisionPolicy
        CollisionPolicy.decode }

/-- The JSON form of settings. -/
def Settings.encode (settings : Settings) : Value :=
  .ofFields [
    ("filter_selector_keyword", some (.text settings.selectorKeyword)),
    ("result_decimals", some (.number (.integer settings.resultPlaces))),
    ("percent_unit", some (.text settings.percentUnit)),
    ("percent_decimals", some (.number (.integer settings.percentPlaces))),
    ("reserved_tokens", some (.list (settings.reservedWords.map .text))),
    ("collision_policy", some (.text settings.collisionPolicy.label))]

end Formulary
