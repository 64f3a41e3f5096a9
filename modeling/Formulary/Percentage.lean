import Formulary.Number.FixedPlaces
import Formulary.Number.Numeral
import Formulary.Settings.Basic

/-!
# Percentages

Users type `12.5` where the unit is percent, and formulas want `0.125`. `percentToFraction` and
`fractionToPercent` go from one text to the other; a text of another unit, or without a number at
its front, stays as it is.
-/

set_option autoImplicit false
set_option relaxedAutoImplicit false

namespace Formulary

open Formulary.Number

/-- Whether a unit is the one of percentages. -/
def Settings.isPercent (settings : Settings) (unit : Option String) : Bool :=
  unit == some settings.percentUnit

/-- The number of a value text in percent. -/
def Settings.percentNumber (settings : Settings) (value : String) (unit : Option String) :
    Option Float :=
  if settings.isPercent unit then leadingNumber value.toList else none

/-- A hundredth of a percentage, with the decimal places of the settings. -/
def percentToFraction (settings : Settings) (value : String) (unit : Option String) : String :=
  (settings.percentNumber value unit).elim value fun number ↦
    fixedText settings.percentPlaces (number / 100.0)

/-- A fraction in whole percent, a half rounded up. -/
def fractionToPercent (settings : Settings) (value : String) (unit : Option String) : String :=
  (settings.percentNumber value unit).elim value fun number ↦
    shortestText (number * 100.0 + 0.5).floor

end Formulary
