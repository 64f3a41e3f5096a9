import Formulary.Number.Numeral
import Formulary.Proofs.Number.RoundedMagnitude
import Mathlib.Algebra.Order.Field.Basic

/-!
# The double nearest to a decimal

A decimal is read as the positive double whose magnitude covers it, `toDouble_of_covers`. The
reading takes one of two ways. If both the digits and the power of ten are doubles, it multiplies or
divides these, `IsExactly.mul_eq` and `IsExactly.div_eq`; otherwise it does so before anything is
rounded, `unpacked_ofScientific_of_covers`. Either way a single product or quotient is rounded,
`mul_of_covers` and `div_of_covers`. The decimals that are too large or too small to be tried are
covered by no magnitude.
-/

set_option autoImplicit false
set_option relaxedAutoImplicit false

namespace Formulary.Number

open Float.Model Float.Model.UnpackedFloat

/-- The number that a decimal stands for. -/
def Decimal.value (decimal : Decimal) : ℚ :=
  decimal.coefficient * 10 ^ decimal.exponent

variable {value : Float} {magnitude : Magnitude} {number : ℚ}

/-! ### Positive doubles -/

/-- A finite double that is greater than zero. -/
structure IsPositive (value : Float) : Prop where
  finite : value.isFinite = true
  nonzero : 0 < value.toBits.toNat
  unsigned : value.toBits.toNat < 2 ^ 63

theorem IsPositive.isCanonical (hvalue : IsPositive value) :
    (magnitudeOf value.toBits.toNat).IsCanonical := by
  obtain ⟨-, hnonzero, hunsigned⟩ := hvalue
  rw [magnitudeOf]
  split
  · refine ⟨?_, ?_, Or.inr rfl, le_rfl⟩ <;> dsimp only <;> omega
  · refine ⟨?_, ?_, Or.inl ?_, ?_⟩ <;> dsimp only <;> omega

theorem IsPositive.exponent_le (hvalue : IsPositive value) :
    (magnitudeOf value.toBits.toNat).exponent ≤ 971 := by
  have hlast := (isFinite_iff value).mp hvalue.finite
  have hunsigned := hvalue.unsigned
  have hleast : leastExponent = -1074 := rfl
  rw [magnitudeOf]
  split
  · exact (by decide : leastExponent ≤ 971)
  · show leastExponent + _ ≤ 971
    omega

/-- A positive double stands for its magnitude. -/
theorem IsPositive.unpack (hvalue : IsPositive value) :
    UnpackedFloat.unpack Format.binary64 value.toBits.toBitVec =
      .finite .positive (magnitudeOf value.toBits.toNat).significand
        (magnitudeOf value.toBits.toNat).exponent hvalue.isCanonical.positive := by
  obtain ⟨hfinite, hnonzero, hunsigned⟩ := hvalue
  have hsign : signOf value.toBits.toBitVec = .positive :=
    sign_eq_of_toNat_eq ((toNat_signOf value.toBits.toBitVec).trans (Nat.div_eq_of_lt hunsigned))
  rcases unpack_of_isFinite (isFinite_unpack hfinite) with ⟨hzero, -⟩ | ⟨_, hunpack⟩
  · have hrest : value.toBits.toNat % 2 ^ 63 = 0 := hzero
    omega
  · rw [hunpack, hsign]
    rfl

/-- A positive double is what its magnitude packs to. -/
theorem IsPositive.ofModel_pack (hvalue : IsPositive value) {hpositive : _} :
    Float.ofModel (Float.Model.pack (.finite .positive
      (magnitudeOf value.toBits.toNat).significand (magnitudeOf value.toBits.toNat).exponent
      hpositive)) = value := by
  have hunsigned := hvalue.unsigned
  refine eq_of_toNat_toBits ((toNat_pack_magnitudeOf .positive
    ((isFinite_iff value).mp hvalue.finite) hpositive).trans ?_)
  show 0 * 2 ^ 63 + _ = _
  omega

/-! ### Products and quotients -/

/-- A product that a magnitude covers is rounded to the magnitude. -/
theorem mul_of_covers {first second : Nat} {power other : ℤ} {hfirst : 0 < first}
    {hsecond : 0 < second} (hroom : 2 ^ 52 ≤ first * second) (hcanonical : magnitude.IsCanonical)
    (hcovers : magnitude.Covers (first * 2 ^ power * (second * 2 ^ other))) :
    UnpackedFloat.mul Format.binary64 (.finite .positive first power hfirst)
        (.finite .positive second other hsecond) =
      .finite .positive magnitude.significand magnitude.exponent hcanonical.positive := by
  have hlog := (Nat.le_log2 (Nat.mul_pos hfirst hsecond).ne').mpr hroom
  refine roundWithAccuracy_of_covers hcanonical hcovers ?_ ?_
  · show (_ : ℚ) = _
    rw [zpow_add₀ two_ne_zero]
    push_cast
    field_simp
  · rw [targetExponent_eq]
    omega

/-- A quotient of whole numbers begins with the whole quotient, and the remainder tells how it goes
on. -/
theorem standsFor_quotient (dividend : Nat) {divisor : Nat} (hpositive : 0 < divisor) :
    StandsFor (dividend / divisor) (dividend / divisor : ℚ)
      (accuracyOfFraction (dividend % divisor) divisor) := by
  have hdivisor : (0 : ℚ) < divisor := by exact_mod_cast hpositive
  have hsplit : (dividend / divisor : ℚ) =
      (dividend / divisor : Nat) + (dividend % divisor : Nat) / divisor := by
    have hparts : (dividend : ℚ) =
        divisor * (dividend / divisor : Nat) + (dividend % divisor : Nat) := by
      exact_mod_cast (Nat.div_add_mod dividend divisor).symm
    rw [hparts]
    field_simp
  have hless : ((dividend % divisor : Nat) : ℚ) < divisor := by
    exact_mod_cast Nat.mod_lt dividend hpositive
  rw [hsplit, accuracyOfFraction]
  generalize dividend % divisor = rest at hless ⊢
  split
  · rename_i hzero
    simp [StandsFor, hzero]
  · rename_i hsome
    have hrest : (0 : ℚ) < rest := by exact_mod_cast Nat.pos_of_ne_zero hsome
    have hfraction : (0 : ℚ) < rest / divisor ∧ (rest / divisor : ℚ) < 1 :=
      ⟨div_pos hrest hdivisor, (div_lt_one hdivisor).mpr hless⟩
    rcases lt_trichotomy (2 * rest) divisor with hbelow | hhalf | habove
    · have hhalf : (rest / divisor : ℚ) < 1 / 2 := by
        rw [div_lt_div_iff₀ hdivisor two_pos]
        exact_mod_cast (by omega : rest * 2 < 1 * divisor)
      rw [Nat.compare_eq_lt.mpr hbelow]
      exact ⟨by linarith, by linarith⟩
    · have hhalf' : (rest / divisor : ℚ) = 1 / 2 := by
        rw [div_eq_div_iff hdivisor.ne' two_ne_zero]
        exact_mod_cast (by omega : rest * 2 = 1 * divisor)
      rw [Nat.compare_eq_eq.mpr hhalf]
      show _ = _
      rw [hhalf']
    · have hhalf : (1 / 2 : ℚ) < rest / divisor := by
        rw [div_lt_div_iff₀ two_pos hdivisor]
        exact_mod_cast (by omega : 1 * divisor < rest * 2)
      rw [Nat.compare_eq_gt.mpr habove]
      exact ⟨by linarith, by linarith⟩

/-- The binary digits of a whole quotient are as many as those of the dividend are more than those
of the divisor, or one more. -/
theorem log2_le_log2_div (dividend : Nat) {divisor : Nat} (hdividend : 0 < dividend)
    (hdivisor : 0 < divisor) :
    dividend.log2 ≤ (dividend / divisor).log2 + divisor.log2 + 1 := by
  have hquotient : dividend < (dividend / divisor + 1) * divisor := by
    rw [mul_comm]
    exact Nat.lt_mul_div_succ dividend hdivisor
  have hbound : dividend < 2 ^ ((dividend / divisor).log2 + 1 + (divisor.log2 + 1)) := by
    rw [pow_add]
    exact hquotient.trans_le (Nat.mul_le_mul Nat.lt_log2_self Nat.lt_log2_self.le)
  have hlog := (Nat.log2_lt hdividend.ne').mpr hbound
  omega

/-- A quotient that a magnitude covers is rounded to the magnitude. -/
theorem div_of_covers {first second : Nat} {power other : ℤ} {hfirst : 0 < first}
    {hsecond : 0 < second} (hcanonical : magnitude.IsCanonical)
    (hcovers : magnitude.Covers (first * 2 ^ power / (second * 2 ^ other))) :
    UnpackedFloat.div Format.binary64 (.finite .positive first power hfirst)
        (.finite .positive second other hsecond) =
      .finite .positive magnitude.significand magnitude.exponent hcanonical.positive := by
  have htarget : Format.binary64.targetExponent (totalExponent first power -
      totalExponent second other) =
        max (first.log2 + power - (second.log2 + other) - 53) leastExponent := by
    have hleast : Format.binary64.minExponent = leastExponent := rfl
    have hbits : (Format.binary64.mantissaBits : ℤ) = 53 := rfl
    rw [Format.targetExponent, hleast, hbits, totalExponent, totalExponent]
    congr 1
    ring
  generalize hplace : min (power - other)
    (max (first.log2 + power - (second.log2 + other) - 53) leastExponent) = place
  generalize hshift : (power - other - place).toNat = shift
  have hsum : power = shift + place + other := by omega
  have hcore : divCore Format.binary64 first power second other =
      (first * 2 ^ shift / second, place,
        accuracyOfFraction (first * 2 ^ shift % second) second) := by
    simp only [divCore, htarget, hplace, hshift, Nat.shiftLeft_eq]
  show roundWithAccuracy Format.binary64 .positive
    (divCore Format.binary64 first power second other).1
    (divCore Format.binary64 first power second other).2.1
    (divCore Format.binary64 first power second other).2.2 = _
  rw [hcore]
  dsimp only
  refine roundWithAccuracy_of_covers hcanonical hcovers ?_ ?_
  · have hquotient : first * 2 ^ power / (second * 2 ^ other) / 2 ^ place =
        ((first * 2 ^ shift : Nat) / second : ℚ) := by
      rw [hsum, zpow_add₀ two_ne_zero, zpow_add₀ two_ne_zero, zpow_natCast]
      push_cast
      field_simp
    rw [hquotient]
    exact standsFor_quotient _ hsecond
  · have hpositive : 0 < first * 2 ^ shift := Nat.mul_pos hfirst (Nat.two_pow_pos shift)
    have hlog := log2_le_log2_div (first * 2 ^ shift) hpositive hsecond
    have hdigits : first.log2 + shift ≤ (first * 2 ^ shift).log2 := by
      rw [Nat.le_log2 hpositive.ne', pow_add]
      exact Nat.mul_le_mul_right _ (Nat.log2_self_le hfirst.ne')
    rw [targetExponent_eq]
    omega

/-! ### Exact doubles -/

/-- Whether a double is exactly a number and has all of its 53 binary digits. -/
def IsExactly (value : Float) (number : ℚ) : Prop :=
  ∃ mantissa exponent, ∃ hpositive : 0 < mantissa,
    value.toModel.unpack = .finite .positive mantissa exponent hpositive ∧
      mantissa * 2 ^ exponent = number ∧ 2 ^ 52 ≤ mantissa

variable {first second : Float} {other : ℚ}

theorem IsExactly.mul_eq (hfirst : IsExactly first number) (hsecond : IsExactly second other)
    (hvalue : IsPositive value)
    (hcovers : (magnitudeOf value.toBits.toNat).Covers (number * other)) :
    first * second = value := by
  obtain ⟨mantissa, exponent, hpositive, hunpack, rfl, hfull⟩ := hfirst
  obtain ⟨mantissa', exponent', hpositive', hunpack', rfl, -⟩ := hsecond
  have hroom : 2 ^ 52 ≤ mantissa * mantissa' := hfull.trans (Nat.le_mul_of_pos_right _ hpositive')
  show Float.ofModel (Float.Model.pack (UnpackedFloat.mul Format.binary64 first.toModel.unpack
    second.toModel.unpack)) = value
  rw [hunpack, hunpack', mul_of_covers hroom hvalue.isCanonical hcovers]
  exact hvalue.ofModel_pack

theorem IsExactly.div_eq (hfirst : IsExactly first number) (hsecond : IsExactly second other)
    (hvalue : IsPositive value)
    (hcovers : (magnitudeOf value.toBits.toNat).Covers (number / other)) :
    first / second = value := by
  obtain ⟨mantissa, exponent, hpositive, hunpack, rfl, -⟩ := hfirst
  obtain ⟨mantissa', exponent', hpositive', hunpack', rfl, -⟩ := hsecond
  show Float.ofModel (Float.Model.pack (UnpackedFloat.div Format.binary64 first.toModel.unpack
    second.toModel.unpack)) = value
  rw [hunpack, hunpack', div_of_covers hvalue.isCanonical hcovers]
  exact hvalue.ofModel_pack

/-- The table of powers of ten holds positive doubles with all digits, each of them exact. -/
theorem powersOfTen_exact : ∀ index : Fin Float.exactlyRepresentablePowersOfTen.size,
    let bits := Float.exactlyRepresentablePowersOfTen[index].toBits.toNat
    let magnitude := magnitudeOf bits
    (bits / 2 ^ 52 % 2 ^ 11 ≠ 2 ^ 11 - 1 ∧ 0 < bits ∧ bits < 2 ^ 63) ∧
      2 ^ 52 ≤ magnitude.significand ∧
      magnitude.significand * 2 ^ magnitude.exponent.toNat =
        10 ^ index.val * 2 ^ (-magnitude.exponent).toNat := by
  decide +kernel

theorem isExactly_powerOfTen {exponent : Nat}
    (hexponent : exponent < Float.exactlyRepresentablePowersOfTen.size) :
    IsExactly Float.exactlyRepresentablePowersOfTen[exponent] (10 ^ exponent) := by
  obtain ⟨⟨hfinite, hnonzero, hunsigned⟩, hfull, hsame⟩ := powersOfTen_exact ⟨exponent, hexponent⟩
  have hvalue : IsPositive Float.exactlyRepresentablePowersOfTen[exponent] :=
    ⟨(isFinite_iff _).mpr hfinite, hnonzero, hunsigned⟩
  refine ⟨_, _, _, hvalue.unpack, ?_, hfull⟩
  rw [zpow_eq_div two_ne_zero, mul_div_assoc', div_eq_iff (by positivity)]
  exact_mod_cast hsame

/-- What is packed with all of its binary digits is unpacked again. -/
theorem unpack_pack_of_full {sign : Sign} {mantissa : Nat} {exponent : ℤ}
    {hpositive : 0 < mantissa} (hfull : 2 ^ 52 ≤ mantissa) (hbounded : mantissa < 2 ^ 53)
    (hleast : leastExponent ≤ exponent) (hgreatest : exponent ≤ 971) :
    (Float.Model.pack (.finite sign mantissa exponent hpositive)).unpack =
      .finite sign mantissa exponent hpositive := by
  have hleast' : leastExponent = -1074 := rfl
  have hone : sign.toBitVec.toNat < 2 := sign.toBitVec.isLt
  obtain ⟨biased, hbiased⟩ := Int.eq_ofNat_of_zero_le (by omega : 0 ≤ exponent + 1075)
  show UnpackedFloat.unpack Format.binary64 (UnpackedFloat.pack Format.binary64 _) = _
  rw [pack_of_full hfull hbounded hbiased (by omega)]
  have hbits := toNat_packComponents sign (BitVec.ofNat 11 biased) (BitVec.ofNat 52 mantissa)
  rw [BitVec.toNat_ofNat, BitVec.toNat_ofNat] at hbits
  generalize packComponents Format.binary64 sign (BitVec.ofNat 11 biased)
    (BitVec.ofNat 52 mantissa) = bits at hbits ⊢
  have hsign : signOf bits = sign := by
    refine sign_eq_of_toNat_eq ?_
    rw [toNat_signOf]
    omega
  have hmagnitude : magnitudeOf bits.toNat = ⟨mantissa, exponent⟩ := by
    rw [magnitudeOf, if_neg (by omega), Magnitude.mk.injEq]
    omega
  rcases unpack_of_isFinite ((isFinite_unpack_iff bits).mpr (by omega)) with
    ⟨hzero, -⟩ | ⟨_, hunpack⟩
  · omega
  · rw [hunpack, UnpackedFloat.finite.injEq, hsign, hmagnitude]
    exact ⟨rfl, rfl, rfl⟩

/-- A whole number of at most 53 binary digits is a double. -/
theorem isExactly_toFloat {whole : Nat} (hpositive : 0 < whole) (hbounded : whole < 2 ^ 53) :
    IsExactly whole.toUInt64.toFloat whole := by
  have hleast : leastExponent = -1074 := rfl
  have hlog := (Nat.log2_lt hpositive.ne').mpr hbounded
  obtain ⟨shift, hshift⟩ : ∃ shift, whole.log2 + shift = 52 := ⟨52 - whole.log2, by omega⟩
  -- the whole number with zeros behind it
  have hfull : 2 ^ 52 ≤ whole * 2 ^ shift := by
    rw [← hshift, pow_add]
    exact Nat.mul_le_mul_right _ (Nat.log2_self_le hpositive.ne')
  have hend : whole * 2 ^ shift < 2 ^ 53 := by
    have hdigits : 53 = whole.log2 + 1 + shift := by omega
    rw [hdigits, pow_add]
    exact Nat.mul_lt_mul_of_pos_right Nat.lt_log2_self (Nat.two_pow_pos shift)
  have hcanonical : (Magnitude.mk (whole * 2 ^ shift) (-shift)).IsCanonical :=
    ⟨by positivity, hend, Or.inl hfull, by dsimp only; omega⟩
  have hvalue : (Magnitude.mk (whole * 2 ^ shift) (-shift)).value = whole := by
    rw [Magnitude.value, zpow_neg, zpow_natCast]
    push_cast
    field_simp
  have hround : UnpackedFloat.ofUInt64 Format.binary64 whole.toUInt64 =
      .finite .positive (whole * 2 ^ shift) (-shift) hcanonical.positive := by
    have hword : whole.toUInt64.toNat = whole := by
      rw [Nat.toUInt64_eq, UInt64.toNat_ofNat']
      omega
    have hplace : Format.binary64.targetExponent (totalExponent whole 0) = -shift := by
      rw [targetExponent_eq]
      omega
    have hamount : (- -(shift : ℤ)).toNat = shift := by omega
    rw [UnpackedFloat.ofUInt64, UnpackedFloat.ofNat, UnpackedFloat.ofInt, UnpackedFloat.normalize,
      hword, Int.compare_eq_gt.mpr (by omega)]
    show UnpackedFloat.round Format.binary64 .positive whole 0 = _
    have hdecrease : decreaseExponent whole 0 (-shift) = (whole * 2 ^ shift, -(shift : ℤ)) := by
      simp only [decreaseExponent, zero_sub, hamount, Nat.shiftLeft_eq]
    rw [UnpackedFloat.round, hplace, hdecrease]
    refine roundWithAccuracy_of_covers hcanonical
      (Magnitude.covers_value hcanonical.positive) ?_ hcanonical.targetExponent.ge
    exact mul_div_cancel_right₀ _ (zpow_pos two_pos _).ne'
  refine ⟨_, _, hcanonical.positive, ?_, hvalue, hfull⟩
  show (Float.Model.pack (UnpackedFloat.ofUInt64 Format.binary64 whole.toUInt64)).unpack = _
  rw [hround]
  exact unpack_pack_of_full hfull hend hcanonical.least (by omega)

/-! ### Decimals -/

theorem two_zpow_le_ten_zpow {exponent : ℤ} (hexponent : 0 ≤ exponent) :
    (2 : ℚ) ^ (3 * exponent) ≤ 10 ^ exponent := by
  rw [zpow_mul]
  exact zpow_le_zpow_left₀ hexponent (by norm_num) (by norm_num)

theorem ten_zpow_le_two_zpow {exponent : ℤ} (hexponent : exponent ≤ 0) :
    (10 : ℚ) ^ exponent ≤ 2 ^ (3 * exponent) := by
  have hinverse := two_zpow_le_ten_zpow (neg_nonneg.mpr hexponent)
  rw [mul_neg, zpow_neg, zpow_neg] at hinverse
  exact (inv_le_inv₀ (zpow_pos two_pos _) (by positivity)).mp hinverse

theorem Magnitude.Covers.two_zpow_le (hcovers : magnitude.Covers number)
    (hcanonical : magnitude.IsCanonical) : 2 ^ (-1075 : ℤ) ≤ number := by
  have hlow := hcovers.isNearest.low
  have hone : (1 : ℚ) ≤ magnitude.significand := by exact_mod_cast hcanonical.positive
  have hhalf : (1 / 2 : ℚ) ≤ number / 2 ^ magnitude.exponent := by linarith
  rw [le_div_iff₀ (zpow_pos two_pos _)] at hhalf
  refine le_trans ?_ hhalf
  rw [show (-1075 : ℤ) = -1 + -1074 by norm_num, zpow_add₀ two_ne_zero, zpow_neg_one, one_div]
  exact mul_le_mul_of_nonneg_left (zpow_le_zpow_right₀ one_le_two hcanonical.least) (by norm_num)

theorem IsPositive.lt_two_zpow (hvalue : IsPositive value)
    (hcovers : (magnitudeOf value.toBits.toNat).Covers number) : number < 2 ^ (1024 : ℤ) :=
  (hcovers.lt_of_isCanonical hvalue.isCanonical).trans_le
    (zpow_le_zpow_right₀ one_le_two (by linarith [hvalue.exponent_le]))

/-- The product of a whole number with a power of ten is rounded to the magnitude that covers it. -/
theorem unpacked_ofScientific_of_covers {whole : Nat} {power : ℤ}
    (hcanonical : magnitude.IsCanonical) (hcovers : magnitude.Covers (whole * 10 ^ power))
    (hnonzero : whole ≠ 0) (hhigh : power ≤ 2 ^ 11) (hlow : -(2 ^ 11 + whole.log2) ≤ power) :
    UnpackedFloat.ofScientific Format.binary64 whole power =
      .finite .positive magnitude.significand magnitude.exponent hcanonical.positive := by
  rw [UnpackedFloat.ofScientific, dif_neg hnonzero, if_neg (by simpa using hhigh),
    if_neg (by simpa using hlow)]
  by_cases hwhole : 0 ≤ power
  · rw [if_pos hwhole]
    refine mul_of_covers ?_ hcanonical ?_
    · have hroom : 2 ^ 52 ≤ whole <<< 53 := by
        rw [Nat.shiftLeft_eq]
        have := Nat.pos_of_ne_zero hnonzero
        omega
      exact hroom.trans (Nat.le_mul_of_pos_right _ (by positivity))
    · have hpower : (10 : ℚ) ^ power = 10 ^ power.toNat := by
        rw [← zpow_natCast, Int.toNat_of_nonneg hwhole]
      have hbits : Format.binary64.mantissaBits = 53 := rfl
      have hsame : ((whole <<< Format.binary64.mantissaBits : Nat) : ℚ) *
          2 ^ (-(Format.binary64.mantissaBits : ℤ)) * ((10 ^ power.toNat : Nat) * 2 ^ (0 : ℤ)) =
            whole * 10 ^ power := by
        rw [hpower, hbits, Nat.shiftLeft_eq, zpow_neg, zpow_natCast]
        push_cast
        field_simp
        norm_num
      rwa [hsame]
  · rw [if_neg hwhole]
    refine div_of_covers hcanonical ?_
    have hpower : (10 : ℚ) ^ power = (10 ^ (-power).toNat)⁻¹ := by
      rw [← zpow_natCast, ← zpow_neg, Int.toNat_of_nonneg (by omega), neg_neg]
    rw [hpower, ← div_eq_mul_inv] at hcovers
    simpa using hcovers

theorem ofScientific_of_covers {whole count : Nat} {negative : Bool} {power : ℤ}
    (hvalue : IsPositive value)
    (hpower : power = if negative then -(count : ℤ) else count)
    (hcovers : (magnitudeOf value.toBits.toNat).Covers (whole * 10 ^ power)) (hnonzero : whole ≠ 0)
    (hhigh : power ≤ 2 ^ 11) (hlow : -(2 ^ 11 + whole.log2) ≤ power) :
    Float.ofScientific whole negative count = value := by
  rw [Float.ofScientific]
  split
  · rename_i hsmall
    have hfirst := isExactly_toFloat (Nat.pos_of_ne_zero hnonzero) hsmall.1
    have hsecond := isExactly_powerOfTen
      (show count < Float.exactlyRepresentablePowersOfTen.size from Nat.lt_succ_of_le hsmall.2)
    cases negative with
    | true =>
      rw [hpower, if_pos rfl, zpow_neg, zpow_natCast, ← div_eq_mul_inv] at hcovers
      exact hfirst.div_eq hsecond hvalue hcovers
    | false =>
      rw [hpower, if_neg Bool.false_ne_true, zpow_natCast] at hcovers
      exact hfirst.mul_eq hsecond hvalue hcovers
  · have hsame : (if negative = true then Int.negOfNat count else Int.ofNat count) = power := by
      rw [hpower, Int.negOfNat_eq]
      rfl
    simp only [hsame, Float.Model.ofScientific]
    rw [unpacked_ofScientific_of_covers hvalue.isCanonical hcovers hnonzero hhigh hlow]
    exact hvalue.ofModel_pack

/-- A decimal is read as the double whose magnitude covers it. -/
theorem toDouble_of_covers {decimal : Decimal} (hvalue : IsPositive value)
    (hcovers : (magnitudeOf value.toBits.toNat).Covers decimal.value) :
    decimal.toDouble = value := by
  have hleast := hcovers.two_zpow_le hvalue.isCanonical
  have hend := hvalue.lt_two_zpow hcovers
  have hnonzero : decimal.coefficient ≠ 0 := by
    intro hzero
    have hpositive := (zpow_pos two_pos (-1075)).trans_le hleast
    rw [Decimal.value, hzero, Nat.cast_zero, zero_mul] at hpositive
    exact hpositive.false
  have hone : (1 : ℚ) ≤ decimal.coefficient := by exact_mod_cast Nat.pos_of_ne_zero hnonzero
  have hhigh : decimal.exponent ≤ 400 := by
    refine not_lt.mp fun hlarge ↦ ?_
    have hpower : (2 : ℚ) ^ (1024 : ℤ) ≤ decimal.value :=
      calc (2 : ℚ) ^ (1024 : ℤ) ≤ 2 ^ (3 * decimal.exponent) :=
            zpow_le_zpow_right₀ one_le_two (by omega)
        _ ≤ 10 ^ decimal.exponent := two_zpow_le_ten_zpow (by omega)
        _ ≤ decimal.value := le_mul_of_one_le_left (by positivity) hone
    exact (hpower.trans_lt hend).false
  have hlow : 3 * (-decimal.exponent).toNat ≤ decimal.coefficient.log2 + 1100 := by
    refine not_lt.mp fun hsmall ↦ ?_
    have hdigits : (decimal.coefficient : ℚ) ≤ 2 ^ (decimal.coefficient.log2 + 1 : ℤ) := by
      exact_mod_cast Nat.lt_log2_self.le
    have hpower : decimal.value ≤ 2 ^ (-1099 : ℤ) :=
      calc decimal.value
          ≤ 2 ^ (decimal.coefficient.log2 + 1 : ℤ) * 2 ^ (3 * decimal.exponent) :=
            mul_le_mul hdigits (ten_zpow_le_two_zpow (by omega)) (by positivity) (by positivity)
        _ = 2 ^ (decimal.coefficient.log2 + 1 + 3 * decimal.exponent) :=
          (zpow_add₀ two_ne_zero _ _).symm
        _ ≤ 2 ^ (-1099 : ℤ) := zpow_le_zpow_right₀ one_le_two (by omega)
    have hless := (zpow_le_zpow_iff_right₀ one_lt_two).mp (hleast.trans hpower)
    omega
  have hcount : decimal.exponent = if decide (decimal.exponent < 0) = true then
      -(decimal.exponent.natAbs : ℤ) else decimal.exponent.natAbs := by
    simp only [decide_eq_true_iff]
    split <;> omega
  rw [Decimal.toDouble, if_neg hnonzero, if_neg (by omega), if_neg (by omega)]
  exact ofScientific_of_covers hvalue hcount hcovers hnonzero (by omega) (by omega)

end Formulary.Number
