import Formulary.Number.Shortest

/-!
# Doubles with a fixed number of decimal places

`fixedText places number` writes the exact value of a double, rounded to the given number of places;
a half goes to the even neighbour. `roundedQuotient` is the rounding, on natural numbers.
-/

set_option autoImplicit false
set_option relaxedAutoImplicit false

namespace Formulary.Number

/-- A quotient rounded to the nearest natural number, a half to the even one. -/
def roundedQuotient (dividend divisor : Nat) : Nat :=
  let below := dividend / divisor
  let rest := dividend % divisor
  if 2 * rest < divisor then below
  else if divisor < 2 * rest then below + 1
  else below + below % 2

/-- A magnitude in units of the last of so many decimal places. -/
def Magnitude.scaled (magnitude : Magnitude) (places : Nat) : Nat :=
  roundedQuotient (magnitude.significand * twoTo magnitude.exponent.toNat * tenTo places)
    (twoTo (-magnitude.exponent).toNat)

/-- The text of a double with so many decimal places. -/
def fixedText (places : Nat) (number : Float) : String :=
  String.ofList <|
    match decode number with
    | .notANumber => ['N', 'a', 'N']
    | .infinite negative => signed negative ['i', 'n', 'f']
    | .finite negative magnitude =>
      signed negative (pointed (digits (magnitude.scaled places)) places)

end Formulary.Number
