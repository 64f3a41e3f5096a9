import Formulary.Text.WhiteSpace

/-!
# Settings

The choices that evaluation, request building and conversion share. Settings that come from outside
are checked by `Settings.validate`: the keyword that marks the selecting filter is not blank, and
results carry no more decimal places than a double holds.
-/

set_option autoImplicit false
set_option relaxedAutoImplicit false

namespace Formulary

/-- What to do when several declared names have one identifier: report it in the log, refuse to
build a request, or keep the first name silently. -/
inductive CollisionPolicy where
  | warn
  | refuse
  | ignore
  deriving Repr, DecidableEq

/-- The settings of the library. -/
structure Settings where
  /-- Part of the name of the filter that selects rows of option tables. -/
  selectorKeyword : String := "country"
  /-- Decimal places of locally evaluated results. -/
  resultPlaces : Nat := 2
  /-- The unit of percentages. -/
  percentUnit : String := "%"
  /-- Decimal places of a percentage written as a fraction. -/
  percentPlaces : Nat := 4
  /-- Words that name no record, besides those of the formula language. -/
  reservedWords : List String := []
  /-- What to do about names with one identifier. -/
  collisionPolicy : CollisionPolicy := .warn
  deriving Repr, DecidableEq

namespace Settings

/-- The settings for which nothing else is said. -/
def standard : Settings := {}

/-- Settings that refuse requests in which two names would merge. -/
def strict : Settings := { collisionPolicy := .refuse }

/-- Settings that keep results at full precision. -/
def unrounded : Settings := { resultPlaces := 15 }

/-- The greatest number of decimal places that settings may ask for. -/
def mostPlaces : Nat := 15

end Settings

/-- Why settings are refused. -/
inductive SettingsError where
  | blankKeyword
  | tooManyPlaces (resultPlaces percentPlaces : Nat)
  deriving Repr, DecidableEq

/-- The wording of a refusal. -/
def SettingsError.message : SettingsError → String
  | .blankKeyword => "Invalid configuration: filter_selector_keyword must not be empty"
  | .tooManyPlaces resultPlaces percentPlaces =>
    s!"Invalid configuration: decimal places must be <= {Settings.mostPlaces} " ++
      s!"(result_decimals = {resultPlaces}, percent_decimals = {percentPlaces})"

/-- Checks settings; a blank keyword is reported before too many places. -/
def Settings.validate (settings : Settings) : Except SettingsError Unit :=
  if Text.isBlank settings.selectorKeyword.toList then .error .blankKeyword
  else if settings.resultPlaces ≤ mostPlaces ∧ settings.percentPlaces ≤ mostPlaces then .ok ()
  else .error (.tooManyPlaces settings.resultPlaces settings.percentPlaces)

end Formulary
