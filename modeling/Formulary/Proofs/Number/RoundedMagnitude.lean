import Formulary.Proofs.Number.DoubleSign
import Mathlib.Algebra.Order.Field.Power
import Mathlib.Algebra.Order.Field.Rat
import Mathlib.Tactic.FieldSimp
import Mathlib.Tactic.Linarith
import Mathlib.Tactic.Ring

/-!
# Rounding to a magnitude

The interval of a magnitude is where the numbers lie that round to it. `Magnitude.Covers` says that
a number is one of them. A whole number with an accuracy stands for the numbers of a certain range,
`StandsFor`; dropping a binary digit keeps what it stands for, `standsFor_shiftRightOne`, and so
does dropping several of them. The last digit to keep is the last place of the number,
`isLastPlace_targetExponent`, which is that of the magnitude or, just below a power of two, the one
below it, `IsLastPlace.eq_or_below`. So rounding a number that a magnitude covers gives the
magnitude, `roundWithAccuracy_of_covers`.
-/

set_option autoImplicit false
set_option relaxedAutoImplicit false

namespace Formulary.Number

open Float.Model Float.Model.UnpackedFloat

/-! ### Intervals -/

/-- The number that a magnitude stands for. -/
def Magnitude.value (magnitude : Magnitude) : ℚ :=
  magnitude.significand * 2 ^ magnitude.exponent

/-- Whether a count of quarters lies in an interval. -/
def Neighbourhood.Contains (interval : Neighbourhood) (quarters : ℚ) : Prop :=
  if interval.closed then interval.low ≤ quarters ∧ quarters ≤ interval.high
  else interval.low < quarters ∧ quarters < interval.high

/-- Whether a number lies in the interval of a magnitude. -/
def Magnitude.Covers (magnitude : Magnitude) (number : ℚ) : Prop :=
  magnitude.neighbourhood.Contains (4 * (number / 2 ^ magnitude.exponent))

/-- A positive magnitude as a double has it: of 53 binary digits, or of the least exponent. -/
structure Magnitude.IsCanonical (magnitude : Magnitude) : Prop where
  positive : 0 < magnitude.significand
  bounded : magnitude.significand < 2 ^ 53
  full : 2 ^ 52 ≤ magnitude.significand ∨ magnitude.exponent = leastExponent
  least : leastExponent ≤ magnitude.exponent

/-- Whether a whole number is the one nearest to a number, the even one of two equally near. -/
structure IsNearest (nearest : Nat) (number : ℚ) : Prop where
  low : nearest - 1 / 2 ≤ number
  high : number ≤ nearest + 1 / 2
  odd : nearest % 2 = 1 → nearest - 1 / 2 < number ∧ number < nearest + 1 / 2

variable {magnitude : Magnitude} {number : ℚ}

/-- A power as a quotient of natural powers, one of which is one. -/
theorem zpow_eq_div {base : ℚ} (hbase : base ≠ 0) (exponent : ℤ) :
    base ^ exponent = base ^ exponent.toNat / base ^ (-exponent).toNat := by
  rw [← zpow_natCast, ← zpow_natCast, ← zpow_sub₀ hbase]
  congr 1
  omega

theorem Magnitude.le_low_add (magnitude : Magnitude) :
    4 * magnitude.significand ≤ magnitude.neighbourhood.low + 2 := by
  simp only [neighbourhood]
  split <;> omega

theorem Magnitude.low_lt (hpositive : 0 < magnitude.significand) :
    magnitude.neighbourhood.low < 4 * magnitude.significand := by
  simp only [neighbourhood]
  split <;> omega

theorem Magnitude.high_eq (magnitude : Magnitude) :
    magnitude.neighbourhood.high = 4 * magnitude.significand + 2 := rfl

theorem Neighbourhood.contains_of_lt {interval : Neighbourhood} {quarters : ℚ}
    (hlow : interval.low < quarters) (hhigh : quarters < interval.high) :
    interval.Contains quarters := by
  rw [Contains]
  split
  · exact ⟨hlow.le, hhigh.le⟩
  · exact ⟨hlow, hhigh⟩

/-- A magnitude covers what it stands for. -/
theorem Magnitude.covers_value (hpositive : 0 < magnitude.significand) :
    magnitude.Covers magnitude.value := by
  rw [Covers, value, mul_div_cancel_right₀ _ (zpow_pos two_pos _).ne']
  refine Neighbourhood.contains_of_lt ?_ ?_
  · exact_mod_cast low_lt hpositive
  · rw [high_eq]
    push_cast
    linarith

/-- The significand of a magnitude is nearest to a number that the magnitude covers, in units of its
last place. -/
theorem Magnitude.Covers.isNearest (hcovers : magnitude.Covers number) :
    IsNearest magnitude.significand (number / 2 ^ magnitude.exponent) := by
  have hlow : (4 * magnitude.significand : ℚ) ≤ magnitude.neighbourhood.low + 2 := by
    exact_mod_cast magnitude.le_low_add
  have hclosed : magnitude.neighbourhood.closed = (magnitude.significand % 2 == 0) := rfl
  rw [Covers, Neighbourhood.Contains, hclosed, high_eq] at hcovers
  push_cast at hcovers
  by_cases hodd : magnitude.significand % 2 = 1
  · rw [if_neg (by simp [hodd])] at hcovers
    exact ⟨by linarith, by linarith, fun _ ↦ ⟨by linarith, by linarith⟩⟩
  · rw [if_pos (by simp; omega)] at hcovers
    exact ⟨by linarith, by linarith, fun h ↦ absurd h hodd⟩

/-- The interval of a power of two reaches only half as far down. -/
theorem Magnitude.Covers.low_of_power (hcovers : magnitude.Covers number)
    (hpower : magnitude.significand = 2 ^ 52) (hleast : leastExponent < magnitude.exponent) :
    2 ^ 52 - 1 / 4 ≤ number / 2 ^ magnitude.exponent := by
  rw [Covers, Neighbourhood.Contains, neighbourhood] at hcovers
  have heven : (magnitude.significand % 2 == 0) = true := by rw [hpower]; decide
  rw [if_pos heven, if_pos ⟨hpower.trans (twoTo_eq 52).symm, hleast⟩, hpower] at hcovers
  have hlow := hcovers.1
  norm_num at hlow ⊢
  linarith

/-! ### Rounding with residual digits -/

/-- Whether a whole number with an accuracy stands for a number. -/
def StandsFor (whole : Nat) (number : ℚ) : Accuracy → Prop
  | .exact => number = whole
  | .inexact .lt => whole < number ∧ number < whole + 1 / 2
  | .inexact .eq => number = whole + 1 / 2
  | .inexact .gt => whole + 1 / 2 < number ∧ number < whole + 1

theorem StandsFor.bounds {whole : Nat} {accuracy : Accuracy}
    (hstands : StandsFor whole number accuracy) : whole ≤ number ∧ number < whole + 1 := by
  rcases accuracy with _ | (_ | _ | _) <;> simp only [StandsFor] at hstands <;>
    constructor <;> linarith

/-- Without its last binary digit, an extended mantissa stands for half the number. -/
theorem standsFor_shiftRightOne {extended : ExtendedMantissa}
    (hstands : StandsFor extended.mantissa number extended.accuracy) :
    StandsFor extended.shiftRightOne.mantissa (number / 2) extended.shiftRightOne.accuracy := by
  obtain ⟨mantissa, roundBit, stickyBit⟩ := extended
  have hsplit : (mantissa : ℚ) = 2 * (mantissa / 2 : Nat) + (mantissa % 2 : Nat) := by
    exact_mod_cast (Nat.div_add_mod mantissa 2).symm
  have hlast : (1 != 0) = true := rfl
  rw [ExtendedMantissa.shiftRightOne]
  rcases Nat.mod_two_eq_zero_or_one mantissa with hdigit | hdigit
  all_goals
    rw [hdigit] at hsplit ⊢
    push_cast at hsplit
    cases roundBit <;> cases stickyBit <;>
      simp only [ExtendedMantissa.accuracy, StandsFor, hsplit, hlast, bne_self_eq_false,
        Bool.or_false, Bool.or_true] at hstands ⊢ <;>
      grind

theorem standsFor_shiftRight {extended : ExtendedMantissa} (count : Nat)
    (hstands : StandsFor extended.mantissa number extended.accuracy) :
    StandsFor (extended >>> count).mantissa (number / 2 ^ count) (extended >>> count).accuracy := by
  induction count with
  | zero =>
    rw [pow_zero, div_one]
    exact hstands
  | succ count ih =>
    rw [pow_succ, ← div_div]
    exact standsFor_shiftRightOne ih

theorem standsFor_ofMantissaAndAccuracy {whole : Nat} {accuracy : Accuracy}
    (hstands : StandsFor whole number accuracy) :
    let extended := ExtendedMantissa.ofMantissaAndAccuracy whole accuracy
    StandsFor extended.mantissa number extended.accuracy := by
  rcases accuracy with _ | (_ | _ | _) <;> exact hstands

/-- The rounded mantissa is the nearest whole number. -/
theorem roundedMantissa_of_isNearest {extended : ExtendedMantissa} {nearest : Nat}
    (hstands : StandsFor extended.mantissa number extended.accuracy)
    (hnearest : IsNearest nearest number) : extended.roundedMantissa = nearest := by
  obtain ⟨hlow, hhigh, hodd⟩ := hnearest
  rw [ExtendedMantissa.roundedMantissa]
  generalize extended.mantissa = mantissa at hstands ⊢
  generalize extended.accuracy = accuracy at hstands ⊢
  rcases accuracy with _ | (_ | _ | _) <;>
    simp only [StandsFor, Accuracy.roundToNearestEven] at hstands ⊢
  · have hbelow : (2 * nearest : ℚ) ≤ 2 * mantissa + 1 := by linarith
    have habove : (2 * mantissa : ℚ) ≤ 2 * nearest + 1 := by linarith
    norm_cast at hbelow habove
    omega
  · have hbelow : (nearest : ℚ) < mantissa + 1 := by linarith
    have habove : (2 * mantissa : ℚ) < 2 * nearest + 1 := by linarith
    norm_cast at hbelow habove
    omega
  · have hbelow : (nearest : ℚ) ≤ mantissa + 1 := by linarith
    have habove : (mantissa : ℚ) ≤ nearest := by linarith
    norm_cast at hbelow habove
    have heven : nearest % 2 ≠ 1 := by
      intro hone
      have hstrict : (nearest : ℚ) < mantissa + 1 ∧ (mantissa : ℚ) < nearest :=
        ⟨by linarith [(hodd hone).1], by linarith [(hodd hone).2]⟩
      norm_cast at hstrict
      omega
    omega
  · have hbelow : (2 * nearest : ℚ) < 2 * mantissa + 3 := by linarith
    have habove : (mantissa : ℚ) < nearest := by linarith
    norm_cast at hbelow habove
    omega

/-! ### Last places -/

/-- Whether the doubles near to a number have their last place at a power of two. -/
structure IsLastPlace (exponent : ℤ) (number : ℚ) : Prop where
  least : leastExponent ≤ exponent
  full : exponent = leastExponent ∨ 2 ^ (52 + exponent) ≤ number
  bounded : number < 2 ^ (53 + exponent)

theorem targetExponent_eq (mantissa : Nat) (exponent : ℤ) :
    Format.binary64.targetExponent (totalExponent mantissa exponent) =
      max (mantissa.log2 + exponent - 52) leastExponent := by
  have hleast : Format.binary64.minExponent = leastExponent := rfl
  have hbits : (Format.binary64.mantissaBits : ℤ) = 53 := rfl
  rw [Format.targetExponent, totalExponent, hleast, hbits]
  congr 1
  ring

/-- A number lies in the range of the binary digits of the whole number that it begins with. -/
theorem isLastPlace_targetExponent {mantissa : Nat} {exponent : ℤ}
    (hlow : mantissa ≤ number / 2 ^ exponent) (hhigh : number / 2 ^ exponent < mantissa + 1)
    (hroom : exponent ≤ Format.binary64.targetExponent (totalExponent mantissa exponent)) :
    IsLastPlace (Format.binary64.targetExponent (totalExponent mantissa exponent)) number := by
  rw [targetExponent_eq] at hroom ⊢
  have hbehind : number < 2 ^ (mantissa.log2 + 1 + exponent : ℤ) := by
    have hnext : (mantissa + 1 : ℚ) ≤ 2 ^ (mantissa.log2 + 1) := by
      exact_mod_cast Nat.lt_log2_self
    rw [div_lt_iff₀ (zpow_pos two_pos exponent)] at hhigh
    rw [zpow_add₀ two_ne_zero, ← Nat.cast_one, ← Nat.cast_add, zpow_natCast]
    exact hhigh.trans_le (mul_le_mul_of_nonneg_right hnext (zpow_pos two_pos exponent).le)
  refine ⟨le_max_right _ _, ?_, hbehind.trans_le (zpow_le_zpow_right₀ one_le_two ?_)⟩
  · rcases Nat.eq_zero_or_pos mantissa with rfl | hpositive
    · left
      rw [Nat.log2_zero] at hroom ⊢
      omega
    · have hbegin : (2 : ℚ) ^ (mantissa.log2 + exponent : ℤ) ≤ number := by
        have hfirst : (2 ^ mantissa.log2 : ℚ) ≤ mantissa := by
          exact_mod_cast Nat.log2_self_le hpositive.ne'
        rw [le_div_iff₀ (zpow_pos two_pos exponent)] at hlow
        rw [zpow_add₀ two_ne_zero, zpow_natCast]
        exact (mul_le_mul_of_nonneg_right hfirst (zpow_pos two_pos exponent).le).trans hlow
      refine or_iff_not_imp_left.mpr fun hmore ↦ ?_
      refine (zpow_le_zpow_right₀ one_le_two ?_).trans hbegin
      omega
  · omega

/-- A number that a magnitude covers lies below the end of the digits of the magnitude. -/
theorem Magnitude.Covers.lt_of_isCanonical (hcanonical : magnitude.IsCanonical)
    (hcovers : magnitude.Covers number) : number < 2 ^ (53 + magnitude.exponent) := by
  have hhigh := hcovers.isNearest.high
  have hbound : (magnitude.significand + 1 : ℚ) ≤ 2 ^ 53 := by
    exact_mod_cast hcanonical.bounded
  rw [zpow_add₀ two_ne_zero, ← div_lt_iff₀ (zpow_pos two_pos _)]
  norm_num at hhigh hbound ⊢
  linarith

/-- The last place of a number is that of the magnitude that covers it, or the one below that for a
number just below a power of two. -/
theorem IsLastPlace.eq_or_below {place : ℤ} (hplace : IsLastPlace place number)
    (hcanonical : magnitude.IsCanonical) (hcovers : magnitude.Covers number) :
    place = magnitude.exponent ∨
      place = magnitude.exponent - 1 ∧ magnitude.significand = 2 ^ 52 ∧
        leastExponent < magnitude.exponent := by
  obtain ⟨hleast, hfull, hbounded⟩ := hplace
  have hplaces {power : ℤ} : (2 : ℚ) ^ (power + magnitude.exponent) ≤ number ↔
      2 ^ power ≤ number / 2 ^ magnitude.exponent := by
    rw [zpow_add₀ two_ne_zero, le_div_iff₀ (zpow_pos two_pos _)]
  rcases lt_trichotomy place magnitude.exponent with hbelow | hsame | habove
  · have hmore : leastExponent < magnitude.exponent := hleast.trans_lt hbelow
    -- the number is less than the least one with so many digits
    have hshort : ¬(2 : ℚ) ^ (52 : ℤ) ≤ number / 2 ^ magnitude.exponent := by
      rw [← hplaces, not_le]
      exact hbounded.trans_le (zpow_le_zpow_right₀ one_le_two (by omega))
    have hpower : magnitude.significand = 2 ^ 52 := by
      have hlow := hcovers.isNearest.low
      have hless : (magnitude.significand : ℚ) < 2 ^ 52 + 1 := by
        norm_num at hshort
        linarith
      have hfirst := hcanonical.full.resolve_right hmore.ne'
      norm_cast at hless
      omega
    have hnext : (2 : ℚ) ^ (51 + magnitude.exponent) ≤ number := by
      have hlow := hcovers.low_of_power hpower hmore
      rw [hplaces]
      norm_num at hlow ⊢
      linarith
    have hless := (zpow_lt_zpow_iff_right₀ one_lt_two).mp (hnext.trans_lt hbounded)
    exact Or.inr ⟨by omega, hpower, hmore⟩
  · exact Or.inl hsame
  · have hmore := hfull.resolve_left (hcanonical.least.trans_lt habove).ne'
    have hless := (zpow_lt_zpow_iff_right₀ one_lt_two).mp
      (hmore.trans_lt (hcovers.lt_of_isCanonical hcanonical))
    omega

/-! ### Rounding -/

/-- Moving a number to its last place keeps what it stands for. -/
theorem standsFor_shiftToTargetExponent {mantissa : Nat} {exponent place : ℤ} {accuracy : Accuracy}
    (hstands : StandsFor mantissa (number / 2 ^ exponent) accuracy)
    (hplace : Format.binary64.targetExponent (totalExponent mantissa exponent) = place)
    (hroom : exponent ≤ place) :
    ∃ extended, shiftToTargetExponent Format.binary64 mantissa exponent accuracy =
        (extended, place) ∧
      StandsFor extended.mantissa (number / 2 ^ place) extended.accuracy := by
  have hsum : exponent + (place - exponent).toNat = place := by omega
  refine ⟨ExtendedMantissa.ofMantissaAndAccuracy mantissa accuracy >>> (place - exponent).toNat,
    ?_, ?_⟩
  · rw [shiftToTargetExponent, hplace, shiftToExponent, hsum]
  · have hsplit : number / 2 ^ place = number / 2 ^ exponent / 2 ^ (place - exponent).toNat := by
      rw [div_div, ← zpow_natCast, ← zpow_add₀ two_ne_zero, hsum]
    rw [hsplit]
    exact standsFor_shiftRight _ (standsFor_ofMantissaAndAccuracy hstands)

/-- A magnitude has its last place where it should be. -/
theorem Magnitude.IsCanonical.targetExponent (hcanonical : magnitude.IsCanonical) :
    Format.binary64.targetExponent (totalExponent magnitude.significand magnitude.exponent) =
      magnitude.exponent := by
  obtain ⟨hpositive, hbounded, hfull, hleast⟩ := hcanonical
  rw [targetExponent_eq]
  have hlog := (Nat.log2_lt hpositive.ne').mpr hbounded
  rcases hfull with hfull | hleast
  · have hlog' := (Nat.le_log2 hpositive.ne').mpr hfull
    omega
  · omega

theorem shiftToTargetExponent_of_eq {mantissa : Nat} {exponent : ℤ}
    (hplace : Format.binary64.targetExponent (totalExponent mantissa exponent) = exponent) :
    shiftToTargetExponent Format.binary64 mantissa exponent .exact =
      (⟨mantissa, false, false⟩, exponent) := by
  rw [shiftToTargetExponent, hplace, shiftToExponent, sub_self]
  exact congrArg (Prod.mk _) (add_zero exponent)

/-- The power of two behind the last digit moves to the next place. -/
theorem shiftToTargetExponent_of_power {exponent : ℤ} (hleast : leastExponent < exponent) :
    shiftToTargetExponent Format.binary64 (2 ^ 53) (exponent - 1) .exact =
      (⟨2 ^ 52, false, false⟩, exponent) := by
  have hplace : Format.binary64.targetExponent (totalExponent (2 ^ 53) (exponent - 1)) =
      exponent := by
    rw [targetExponent_eq, Nat.log2_two_pow]
    omega
  have hone : (exponent - (exponent - 1)).toNat = 1 := by omega
  rw [shiftToTargetExponent, hplace, shiftToExponent, hone]
  exact congrArg (Prod.mk _) (sub_add_cancel exponent 1)

/-- Rounding shifts to the last place, drops what lies behind it, and shifts once more in case
that made a further digit. -/
theorem roundWithAccuracy_of_shifts {sign : Sign} {mantissa rounded significand : Nat}
    {exponent place final : ℤ} {accuracy : Accuracy} {extended : ExtendedMantissa}
    (hshift : shiftToTargetExponent Format.binary64 mantissa exponent accuracy = (extended, place))
    (hrounded : extended.roundedMantissa = rounded)
    (hagain : shiftToTargetExponent Format.binary64 rounded place .exact =
      (⟨significand, false, false⟩, final)) (hpositive : 0 < significand) :
    roundWithAccuracy Format.binary64 sign mantissa exponent accuracy =
      .finite sign significand final hpositive := by
  rw [← hrounded] at hagain
  rw [roundWithAccuracy, hshift]
  dsimp only
  rw [hagain]
  exact dif_neg hpositive.ne'

/-- Rounding a number that a magnitude covers gives the magnitude. The whole number that stands for
it must not have less digits than the magnitude. -/
theorem roundWithAccuracy_of_covers {sign : Sign} {mantissa : Nat} {exponent : ℤ}
    {accuracy : Accuracy} (hcanonical : magnitude.IsCanonical) (hcovers : magnitude.Covers number)
    (hstands : StandsFor mantissa (number / 2 ^ exponent) accuracy)
    (hroom : exponent ≤ Format.binary64.targetExponent (totalExponent mantissa exponent)) :
    roundWithAccuracy Format.binary64 sign mantissa exponent accuracy =
      .finite sign magnitude.significand magnitude.exponent hcanonical.positive := by
  have hplace := isLastPlace_targetExponent hstands.bounds.1 hstands.bounds.2 hroom
  generalize hsame : Format.binary64.targetExponent (totalExponent mantissa exponent) = place
    at hroom hplace
  obtain ⟨extended, hshift, hstands⟩ := standsFor_shiftToTargetExponent hstands hsame hroom
  rcases hplace.eq_or_below hcanonical hcovers with rfl | ⟨rfl, hpower, hleast⟩
  · exact roundWithAccuracy_of_shifts hshift
      (roundedMantissa_of_isNearest hstands hcovers.isNearest)
      (shiftToTargetExponent_of_eq hcanonical.targetExponent) hcanonical.positive
  · have htwice : number / 2 ^ (magnitude.exponent - 1) =
        2 * (number / 2 ^ magnitude.exponent) := by
      rw [zpow_sub_one₀ two_ne_zero]
      field_simp
    have hnearest : IsNearest (2 ^ 53) (number / 2 ^ (magnitude.exponent - 1)) := by
      have hlow := hcovers.low_of_power hpower hleast
      have hbound := hplace.bounded
      rw [zpow_add₀ two_ne_zero, ← div_lt_iff₀ (zpow_pos two_pos _)] at hbound
      rw [htwice] at hbound ⊢
      norm_num at hlow hbound
      exact ⟨by norm_num; linarith, by norm_num; linarith,
        fun hodd ↦ absurd hodd (by decide)⟩
    have hagain := shiftToTargetExponent_of_power hleast
    rw [← hpower] at hagain
    exact roundWithAccuracy_of_shifts hshift (roundedMantissa_of_isNearest hstands hnearest)
      hagain hcanonical.positive

end Formulary.Number
