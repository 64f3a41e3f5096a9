/-!
# Decimal numbers and their positional text

A decimal number is `coefficient · 10 ^ exponent`. `Decimal.reduced` drops the zeros at the end of
the coefficient and `Decimal.positional` writes the number without an exponent, however long the
text becomes.
-/

set_option autoImplicit false
set_option relaxedAutoImplicit false

namespace Formulary.Number

/-- The number `coefficient · 10 ^ exponent`. -/
structure Decimal where
  coefficient : Nat
  exponent : Int
  deriving Repr, DecidableEq

/-- The digits of a natural number. -/
def digits (number : Nat) : List Char :=
  Nat.toDigits 10 number

/-- As many zeros. -/
def zeros (count : Nat) : List Char :=
  List.replicate count '0'

/-- Moves zeros from the end of a coefficient into the exponent, at most so many of them. -/
def dropZeros : Nat → Decimal → Decimal
  | 0, decimal => decimal
  | count + 1, decimal =>
    if decimal.coefficient % 10 = 0 then
      dropZeros count ⟨decimal.coefficient / 10, decimal.exponent + 1⟩
    else decimal

/-- The same number with a coefficient that does not end in a zero. -/
def Decimal.reduced (decimal : Decimal) : Decimal :=
  if decimal.coefficient = 0 then ⟨0, 0⟩
  else dropZeros (digits decimal.coefficient).length decimal

/-- Digits with a point before the last `places` of them, and a zero before the point where no digit
is left for it. -/
def pointed (figures : List Char) (places : Nat) : List Char :=
  let padded := zeros (places + 1 - figures.length) ++ figures
  let whole := padded.take (padded.length - places)
  let fraction := padded.drop (padded.length - places)
  if fraction.isEmpty then whole else whole ++ '.' :: fraction

/-- The text of a decimal number without an exponent. -/
def Decimal.positional (decimal : Decimal) : List Char :=
  if 0 ≤ decimal.exponent then digits decimal.coefficient ++ zeros decimal.exponent.toNat
  else pointed (digits decimal.coefficient) (-decimal.exponent).toNat

end Formulary.Number
