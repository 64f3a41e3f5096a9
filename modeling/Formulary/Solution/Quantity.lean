import Formulary.Number.Numeral
import Formulary.Number.Shortest

/-!
# Quantities

Authors enter values as numbers or as text such as `181 kWh`. A `Quantity` keeps which of the two it
was; `Quantity.reading` is its number, if it has one.
-/

set_option autoImplicit false
set_option relaxedAutoImplicit false

namespace Formulary

open Formulary.Number Formulary.Text

/-- A value as it was entered: a number or a text. -/
inductive Quantity where
  | number (value : Float)
  | text (value : String)
  deriving Repr, DecidableEq

/-- The number that a quantity stands for: a finite number itself, or the one at the front of a
text. -/
def Quantity.reading : Quantity → Option Float
  | .number value => finite? value
  | .text value => leadingNumber value.toList

/-- Whether a quantity is a text of white space only. -/
def Quantity.isBlank : Quantity → Bool
  | .number _ => false
  | .text value => Text.isBlank value.toList

/-- The text of a quantity. -/
def Quantity.display : Quantity → String
  | .number value => shortestText value
  | .text value => value

/-- The reading of a quantity is finite. -/
theorem Quantity.isFinite_of_reading {quantity : Quantity} {value : Float}
    (hreading : quantity.reading = some value) : value.isFinite = true := by
  cases quantity with
  | number number => exact (finite?_eq_some_iff.mp hreading).2
  | text text => exact isFinite_of_leadingNumber hreading

end Formulary
