import Formulary.Number.Power
import Formulary.Settings.Json
import Formulary.Toml.Reader

/-!
# Settings from TOML

`Settings.readToml` reads settings from the text of a configuration file and checks them. Keys that
are not settings are ignored, and settings that are not given keep their standard. A text that is no
TOML, or whose values do not fit, is refused without a reason.
-/

set_option autoImplicit false
set_option relaxedAutoImplicit false

namespace Formulary

open Formulary.Toml
open Formulary.Number (twoTo)

/-! ### Values of settings -/

/-- A text and nothing else. -/
def Toml.Value.text? : Value → Option String
  | .text value => some value
  | _ => none

/-- A non-negative integer of 32 bits. -/
def Toml.Value.natural32? : Value → Option Nat
  | .integer value => if 0 ≤ value ∧ value < twoTo 32 then some value.toNat else none
  | _ => none

/-- A list of texts. -/
def Toml.Value.texts? : Value → Option (List String)
  | .list items => items.mapM text?
  | _ => none

/-- Whether a value is an empty table or list. -/
def Toml.Value.isEmptyContainer : Value → Bool
  | .list items => items.isEmpty
  | .table entries => entries.isEmpty
  | _ => false

/-- The name of a choice: a text, or a table whose one key has that name and nothing in it. -/
def Toml.Value.choice? : Value → Option String
  | .text name => some name
  | .table [(name, value)] => if value.isEmptyContainer then some name else none
  | _ => none

/-- The setting of a key, or its standard if the key is not there. -/
def settingOr {Target : Type} (entries : List (String × Value)) (key : String)
    (standard : Target) (read : Value → Option Target) : Option Target :=
  match entries.lookup key with
  | some value => read value
  | none => some standard

/-! ### Settings -/

/-- The settings of a table. -/
def Settings.ofToml (entries : List (String × Value)) : Option Settings := do
  return {
    selectorKeyword :=
      ← settingOr entries "filter_selector_keyword" standard.selectorKeyword Value.text?
    resultPlaces :=
      ← settingOr entries "result_decimals" standard.resultPlaces Value.natural32?
    percentUnit := ← settingOr entries "percent_unit" standard.percentUnit Value.text?
    percentPlaces :=
      ← settingOr entries "percent_decimals" standard.percentPlaces Value.natural32?
    reservedWords :=
      ← settingOr entries "reserved_tokens" standard.reservedWords Value.texts?
    collisionPolicy :=
      ← settingOr entries "collision_policy" standard.collisionPolicy
        fun value ↦ value.choice?.bind CollisionPolicy.ofName? }

/-- Why a text gives no settings: it cannot be read, or what it says is refused. -/
inductive TomlSettingsError where
  | unreadable
  | refused (error : SettingsError)
  deriving Repr, DecidableEq

/-- Reads settings from TOML text and checks them. -/
def Settings.readToml (text : String) : Except TomlSettingsError Settings :=
  match (Toml.parse text).bind Settings.ofToml with
  | none => .error .unreadable
  | some settings =>
    match settings.validate with
    | .ok () => .ok settings
    | .error error => .error (.refused error)

end Formulary
