import Formulary.Number.Binary

/-!
# Arithmetic on doubles beyond the four operations

`remainder` is the exact remainder of a division that is cut towards zero, `larger` and `smaller`
pass over what is not a number, `integerPower` multiplies by repeated squaring, and `roundTo` keeps
so many decimal places.
-/

set_option autoImplicit false
set_option relaxedAutoImplicit false

namespace Formulary.Number

/-- The result of an operation that has none. -/
def notANumber : Float := 0.0 / 0.0

/-- The remainder of two magnitudes, at the smaller of their exponents. -/
def Magnitude.remainder (dividend divisor : Magnitude) : Magnitude :=
  let exponent := min dividend.exponent divisor.exponent
  ⟨dividend.significand * twoTo (dividend.exponent - exponent).toNat %
      (divisor.significand * twoTo (divisor.exponent - exponent).toNat), exponent⟩

/-- The exact remainder of a division cut towards zero; it has the sign of the dividend. -/
def remainder (dividend divisor : Float) : Float :=
  match decode dividend, decode divisor with
  | .finite negative whole, .finite _ part =>
    if part.significand = 0 then notANumber else encode negative (whole.remainder part)
  | .finite _ _, .infinite _ => dividend
  | _, _ => notANumber

/-- The larger of two doubles; what is not a number is passed over. -/
def larger (first second : Float) : Float :=
  if first.isNaN then second else if second.isNaN then first
  else if first < second then second else first

/-- The smaller of two doubles; what is not a number is passed over. -/
def smaller (first second : Float) : Float :=
  if first.isNaN then second else if second.isNaN then first
  else if second < first then second else first

/-- Multiplies a product by a power of a base, by repeated squaring; `count` bounds the number of
binary digits of the exponent. -/
def powerFrom : Nat → Float → Float → Nat → Float
  | 0, product, _, _ => product
  | count + 1, product, base, exponent =>
    let product := if exponent % 2 = 1 then product * base else product
    if exponent / 2 = 0 then product
    else powerFrom count product (base * base) (exponent / 2)

/-- A double to the power of an integer; for a negative one, the reciprocal of the power. -/
def integerPower (base : Float) (exponent : Int) : Float :=
  let power := powerFrom 64 1.0 base exponent.natAbs
  if exponent < 0 then 1.0 / power else power

/-- The integer that 32 bits stand for when the highest one is the sign. -/
def signedWord (word : Nat) : Int :=
  if word < twoTo 31 then word else (word : Int) - twoTo 32

/-- A double rounded to so many decimal places, a half away from zero. Where the scaled form
overflows the double is kept as it is. -/
def roundTo (places : Nat) (number : Float) : Float :=
  let factor := integerPower 10.0 (signedWord places)
  let rounded := (number * factor).round / factor
  if rounded.isFinite then rounded else number

/-- Rounding keeps a finite double finite. -/
theorem isFinite_roundTo {places : Nat} {number : Float} (hfinite : number.isFinite = true) :
    (roundTo places number).isFinite = true := by
  simp only [roundTo]
  split
  · assumption
  · exact hfinite

end Formulary.Number
