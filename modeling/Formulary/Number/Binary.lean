import Formulary.Number.Power

/-!
# Doubles as integers scaled by powers of two

A finite double is a sign and a magnitude `significand · 2 ^ exponent`. `decode` takes a double
apart by its bits and `encode` puts one together; everything exact that this library does with
doubles (writing, remainders) passes through these two.
-/

set_option autoImplicit false
set_option relaxedAutoImplicit false

namespace Formulary.Number

/-- A non-negative number `significand · 2 ^ exponent`. -/
structure Magnitude where
  significand : Nat
  exponent : Int
  deriving Repr, DecidableEq

/-- What the bits of a double stand for. -/
inductive Decoded where
  | notANumber
  | infinite (negative : Bool)
  | finite (negative : Bool) (magnitude : Magnitude)
  deriving Repr, DecidableEq

/-- The least exponent of a double, that of the smallest positive one. -/
def leastExponent : Int := -1074

/-- Takes a double apart. -/
def decode (number : Float) : Decoded :=
  let bits := number.toBits.toNat
  let negative := bits / twoTo 63 == 1
  let biased := bits / twoTo 52 % twoTo 11
  let fraction := bits % twoTo 52
  if biased = twoTo 11 - 1 then
    if fraction = 0 then .infinite negative else .notANumber
  else if biased = 0 then .finite negative ⟨fraction, leastExponent⟩
  else .finite negative ⟨twoTo 52 + fraction, leastExponent + (biased - 1 : Nat)⟩

/-- The bits of a magnitude that a double can hold: the significand is moved to 53 binary digits, or
to the least exponent where that comes first. -/
def magnitudeBits (magnitude : Magnitude) : Nat :=
  if magnitude.significand = 0 then 0
  else
    let exponent := max (magnitude.exponent + magnitude.significand.log2 - 52) leastExponent
    let significand :=
      magnitude.significand * twoTo (magnitude.exponent - exponent).toNat /
        twoTo (exponent - magnitude.exponent).toNat
    if significand < twoTo 52 then significand
    else ((exponent - leastExponent).toNat + 1) * twoTo 52 + (significand - twoTo 52)

/-- The double with a sign and a magnitude that it can hold. -/
def encode (negative : Bool) (magnitude : Magnitude) : Float :=
  Float.ofBits (UInt64.ofNat ((if negative then twoTo 63 else 0) + magnitudeBits magnitude))

end Formulary.Number
