import Formulary.Number.Shortest
import Mathlib.Algebra.Group.Nat.Defs

/-!
# The sign of a double

The sign of a finite double is the highest of its bits, and nothing else in it changes with the
sign. `unpack_of_isFinite` says what finite bits stand for, a zero or a magnitude with their sign,
and `toNat_pack_magnitudeOf` that a magnitude is packed into its bits again, whatever the sign.
`toNat_toBits_neg` says what negation does to the bits, and `lt_zero_iff` which doubles are
negative. So a negative double is written as a minus sign and its negation, which is
`shortestCharacters_of_lt_zero`, and being negated twice gives a finite double back.
-/

set_option autoImplicit false
set_option relaxedAutoImplicit false

namespace Formulary.Number

open Float.Model Float.Model.UnpackedFloat

/-- The bits of a double. -/
abbrev DoubleBits := BitVec Format.binary64.numBits

variable {bits : DoubleBits} {value : Float} {sign : Sign}

/-! ### The parts of the bits -/

theorem toNat_unpackMantissa (bits : DoubleBits) :
    (@unpackMantissa Format.binary64 bits).toNat = bits.toNat % 2 ^ 52 := by
  simp [unpackMantissa]

theorem toNat_unpackExponent (bits : DoubleBits) :
    (@unpackExponent Format.binary64 bits).toNat = bits.toNat / 2 ^ 52 % 2 ^ 11 := by
  simp [unpackExponent, Nat.shiftRight_eq_div_pow]

theorem toNat_unpackSign (bits : DoubleBits) :
    (@unpackSign Format.binary64 bits).toNat = bits.toNat / 2 ^ 63 % 2 := by
  show (BitVec.extractLsb 63 63 bits).toNat = _
  rw [BitVec.extractLsb_toNat, Nat.shiftRight_eq_div_pow]

theorem toNat_packComponents (sign : Sign) (exponent : BitVec 11) (mantissa : BitVec 52) :
    (packComponents Format.binary64 sign exponent mantissa).toNat =
      sign.toBitVec.toNat * 2 ^ 63 + exponent.toNat * 2 ^ 52 + mantissa.toNat := by
  show (sign.toBitVec ++ exponent ++ mantissa).toNat = _
  rw [BitVec.toNat_append, ← Nat.shiftLeft_add_eq_or_of_lt mantissa.isLt, BitVec.toNat_append,
    ← Nat.shiftLeft_add_eq_or_of_lt exponent.isLt, Nat.shiftLeft_eq, Nat.shiftLeft_eq]
  omega

/-- The mantissa of a normal number has a further digit in front, which the bits leave out. -/
theorem toNat_one_append (mantissa : BitVec 52) :
    (1#1 ++ mantissa).toNat = 2 ^ 52 + mantissa.toNat := by
  rw [BitVec.toNat_append, ← Nat.shiftLeft_add_eq_or_of_lt mantissa.isLt]
  rfl

/-- The sign that bits hold. -/
def signOf (bits : DoubleBits) : Sign :=
  Sign.ofBitVec (@unpackSign Format.binary64 bits)

/-- The sign is the highest bit. -/
theorem toNat_signOf (bits : DoubleBits) :
    (signOf bits).toBitVec.toNat = bits.toNat / 2 ^ 63 := by
  have hsign := toNat_unpackSign bits
  have hbound : bits.toNat < 2 ^ 64 := bits.isLt
  rw [signOf, Sign.ofBitVec]
  by_cases hclear : @unpackSign Format.binary64 bits = 0#1
  · rw [hclear, BitVec.toNat_zero] at hsign
    rw [if_pos hclear]
    show 0 = _
    omega
  · have hset : (@unpackSign Format.binary64 bits).toNat ≠ 0 :=
      fun hzero ↦ hclear (BitVec.eq_of_toNat_eq hzero)
    rw [if_neg hclear]
    show 1 = _
    omega

theorem sign_eq_of_toNat_eq {other : Sign}
    (hsame : sign.toBitVec.toNat = other.toBitVec.toNat) : sign = other := by
  cases sign <;> cases other
  · rfl
  · cases hsame
  · cases hsame
  · rfl

theorem toNat_toBitVec_neg (sign : Sign) :
    (-sign).toBitVec.toNat = 1 - sign.toBitVec.toNat := by
  cases sign <;> rfl

/-! ### What bits stand for -/

/-- The magnitude that the bits of a finite double stand for, whatever the highest one is. -/
def magnitudeOf (bits : Nat) : Magnitude :=
  if bits / 2 ^ 52 % 2 ^ 11 = 0 then ⟨bits % 2 ^ 52, leastExponent⟩
  else ⟨2 ^ 52 + bits % 2 ^ 52, leastExponent + (bits / 2 ^ 52 % 2 ^ 11 - 1 : Nat)⟩

theorem magnitudeOf_mod (bits : Nat) : magnitudeOf (bits % 2 ^ 63) = magnitudeOf bits := by
  have hexponent : bits % 2 ^ 63 / 2 ^ 52 % 2 ^ 11 = bits / 2 ^ 52 % 2 ^ 11 := by omega
  have hmantissa : bits % 2 ^ 63 % 2 ^ 52 = bits % 2 ^ 52 := by omega
  rw [magnitudeOf, magnitudeOf, hexponent, hmantissa]

/-- Bits stand for a finite number unless all bits of the exponent are set. -/
theorem isFinite_unpack_iff (bits : DoubleBits) :
    (UnpackedFloat.unpack Format.binary64 bits).isFinite = true ↔
      bits.toNat / 2 ^ 52 % 2 ^ 11 ≠ 2 ^ 11 - 1 := by
  rw [← toNat_unpackExponent]
  show (if @unpackExponent Format.binary64 bits = -1#11 then _ else _ : UnpackedFloat).isFinite =
    true ↔ _
  by_cases hlast : @unpackExponent Format.binary64 bits = -1#11
  · rw [if_pos hlast, hlast]
    refine iff_of_false ?_ (not_not_intro rfl)
    split <;> exact Bool.false_ne_true
  · rw [if_neg hlast]
    refine iff_of_true ?_ fun hsame ↦ hlast (BitVec.eq_of_toNat_eq hsame)
    by_cases hleast : @unpackExponent Format.binary64 bits = 0#11
    · rw [if_pos hleast]
      by_cases hzero : @unpackMantissa Format.binary64 bits = 0#52
      · rw [dif_pos hzero]
        rfl
      · rw [dif_neg hzero]
        rfl
    · rw [if_neg hleast]
      rfl

/-- Finite bits stand for a zero or for their magnitude, with their sign. -/
theorem unpack_of_isFinite
    (hfinite : (UnpackedFloat.unpack Format.binary64 bits).isFinite = true) :
    (bits.toNat % 2 ^ 63 = 0 ∧
      UnpackedFloat.unpack Format.binary64 bits = .zero (signOf bits)) ∨
    ∃ hpositive : 0 < (magnitudeOf bits.toNat).significand,
      UnpackedFloat.unpack Format.binary64 bits =
        .finite (signOf bits) (magnitudeOf bits.toNat).significand
          (magnitudeOf bits.toNat).exponent hpositive := by
  have hexponent := toNat_unpackExponent bits
  have hmantissa := toNat_unpackMantissa bits
  have hlast : @unpackExponent Format.binary64 bits ≠ -1#11 := by
    intro hlast
    rw [isFinite_unpack_iff, ← hexponent, hlast] at hfinite
    exact hfinite rfl
  have hunpack : UnpackedFloat.unpack Format.binary64 bits = ite _ _ _ := rfl
  rw [if_neg hlast] at hunpack
  rw [hunpack, magnitudeOf, ← hexponent, ← hmantissa]
  by_cases hleast : @unpackExponent Format.binary64 bits = 0#11
  · rw [if_pos hleast, hleast, BitVec.toNat_zero, if_pos rfl]
    by_cases hzero : @unpackMantissa Format.binary64 bits = 0#52
    · rw [dif_pos hzero]
      rw [hleast, BitVec.toNat_zero] at hexponent
      rw [hzero, BitVec.toNat_zero] at hmantissa
      exact Or.inl ⟨by omega, rfl⟩
    · rw [dif_neg hzero]
      exact Or.inr ⟨_, rfl⟩
  · have hsome : (@unpackExponent Format.binary64 bits).toNat ≠ 0 :=
      fun hnone ↦ hleast (BitVec.eq_of_toNat_eq hnone)
    rw [if_neg hleast, if_neg hsome]
    refine Or.inr ⟨Nat.add_pos_left (Nat.two_pow_pos 52) _, ?_⟩
    rw [UnpackedFloat.finite.injEq, toNat_one_append]
    refine ⟨rfl, rfl, ?_⟩
    show ((unpackExponent bits).toNat : Int) - (1023 + 52 : Nat) =
      -1074 + ((unpackExponent bits).toNat - 1 : Nat)
    omega

/-! ### Packing -/

theorem toNat_pack_zero (sign : Sign) :
    (UnpackedFloat.pack Format.binary64 (.zero sign)).toNat = sign.toBitVec.toNat * 2 ^ 63 := by
  show (packComponents Format.binary64 sign 0#11 0#52).toNat = _
  rw [toNat_packComponents, BitVec.toNat_zero, BitVec.toNat_zero]
  omega

section Finite

variable {mantissa biased : Nat} {exponent : Int} {hpositive : 0 < mantissa}

/-- What has all of its binary digits is packed as a normal number. -/
theorem pack_of_full (hfull : 2 ^ 52 ≤ mantissa) (hbounded : mantissa < 2 ^ 53)
    (hexponent : exponent + 1075 = biased) (hfinite : biased + 1 < 2 ^ 11) :
    UnpackedFloat.pack Format.binary64 (.finite sign mantissa exponent hpositive) =
      packComponents Format.binary64 sign (BitVec.ofNat 11 biased) (BitVec.ofNat 52 mantissa) := by
  have hlog : mantissa.log2 = 52 :=
    (Nat.log2_eq_iff (Nat.ne_of_gt hpositive)).mpr ⟨hfull, hbounded⟩
  have hbiased : (exponent + (1023 : Nat) + (52 : Nat)).toNat = biased := by omega
  show (if 2 ^ 11 ≤ (exponent + (1023 : Nat) + (52 : Nat)).toNat + 1 then _
    else if mantissa.log2 + 1 = 53 then
      packComponents Format.binary64 sign
        (BitVec.ofNat 11 (exponent + (1023 : Nat) + (52 : Nat)).toNat) (BitVec.ofNat 52 mantissa)
    else _) = _
  rw [hbiased, hlog, if_neg (Nat.not_le.mpr hfinite), if_pos rfl]

/-- What lacks binary digits is packed as a subnormal number. -/
theorem pack_of_short (hshort : mantissa < 2 ^ 52) (hexponent : exponent + 1075 = 1) :
    UnpackedFloat.pack Format.binary64 (.finite sign mantissa exponent hpositive) =
      packComponents Format.binary64 sign 0#11 (BitVec.ofNat 52 mantissa) := by
  have hlog := (Nat.log2_lt (Nat.ne_of_gt hpositive)).mpr hshort
  show (if 2 ^ 11 ≤ (exponent + (1023 : Nat) + (52 : Nat)).toNat + 1 then _
    else if mantissa.log2 + 1 = 53 then _ else _) = _
  rw [if_neg (by omega), if_neg (by omega)]

end Finite

/-- The magnitude of bits is packed into these bits, with any sign. -/
theorem toNat_pack_magnitudeOf (sign : Sign) {bits : Nat}
    (hfinite : bits / 2 ^ 52 % 2 ^ 11 ≠ 2 ^ 11 - 1)
    (hpositive : 0 < (magnitudeOf bits).significand) :
    (UnpackedFloat.pack Format.binary64 (.finite sign (magnitudeOf bits).significand
        (magnitudeOf bits).exponent hpositive)).toNat =
      sign.toBitVec.toNat * 2 ^ 63 + bits % 2 ^ 63 := by
  have hleast : leastExponent = -1074 := rfl
  by_cases hfirst : bits / 2 ^ 52 % 2 ^ 11 = 0
  · have hmagnitude : magnitudeOf bits = ⟨bits % 2 ^ 52, leastExponent⟩ := if_pos hfirst
    rw [pack_of_short, toNat_packComponents, hmagnitude, BitVec.toNat_zero, BitVec.toNat_ofNat]
    · dsimp only
      omega
    · rw [hmagnitude]
      exact Nat.mod_lt _ (Nat.two_pow_pos 52)
    · rw [hmagnitude]
      exact (by omega : leastExponent + 1075 = 1)
  · have hmagnitude : magnitudeOf bits =
        ⟨2 ^ 52 + bits % 2 ^ 52, leastExponent + (bits / 2 ^ 52 % 2 ^ 11 - 1 : Nat)⟩ :=
      if_neg hfirst
    have hexponent : (magnitudeOf bits).exponent + 1075 = (bits / 2 ^ 52 % 2 ^ 11 : Nat) := by
      rw [hmagnitude]
      dsimp only
      omega
    rw [pack_of_full ?_ ?_ hexponent (by omega), toNat_packComponents, hmagnitude,
      BitVec.toNat_ofNat, BitVec.toNat_ofNat]
    · dsimp only
      omega
    · rw [hmagnitude]
      exact Nat.le_add_right ..
    · rw [hmagnitude]
      dsimp only
      omega

/-! ### The bits of a double -/

theorem eq_of_toNat_toBits {first second : Float}
    (hbits : first.toBits.toNat = second.toBits.toNat) : first = second := by
  obtain ⟨⟨bits, hvalid⟩⟩ := first
  obtain ⟨⟨others, hvalid'⟩⟩ := second
  obtain rfl : bits = others := UInt64.toNat_inj.mp hbits
  rfl

theorem isFinite_unpack (hfinite : value.isFinite = true) :
    (UnpackedFloat.unpack Format.binary64 value.toBits.toBitVec).isFinite = true :=
  hfinite

/-- A double is finite unless all bits of its exponent are set. -/
theorem isFinite_iff (value : Float) :
    value.isFinite = true ↔ value.toBits.toNat / 2 ^ 52 % 2 ^ 11 ≠ 2 ^ 11 - 1 :=
  isFinite_unpack_iff value.toBits.toBitVec

/-- Negation turns the highest bit of a finite double over. -/
theorem toNat_toBits_neg (hfinite : value.isFinite = true) :
    (-value).toBits.toNat = (value.toBits.toNat + 2 ^ 63) % 2 ^ 64 := by
  have hneg : (-value).toBits.toNat =
      (UnpackedFloat.pack Format.binary64
        (UnpackedFloat.unpack Format.binary64 value.toBits.toBitVec).neg).toNat := rfl
  have hsign : (signOf value.toBits.toBitVec).toBitVec.toNat = value.toBits.toNat / 2 ^ 63 :=
    toNat_signOf value.toBits.toBitVec
  have hbound : value.toBits.toNat < 2 ^ 64 := value.toBits.toBitVec.isLt
  have hturned : (-signOf value.toBits.toBitVec).toBitVec.toNat =
      1 - value.toBits.toNat / 2 ^ 63 := by
    rw [toNat_toBitVec_neg, hsign]
  rw [hneg]
  rcases unpack_of_isFinite (isFinite_unpack hfinite) with
    ⟨hzero, hunpack⟩ | ⟨hpositive, hunpack⟩
  · have hrest : value.toBits.toNat % 2 ^ 63 = 0 := hzero
    rw [hunpack]
    refine (toNat_pack_zero (-signOf value.toBits.toBitVec)).trans ?_
    omega
  · rw [hunpack]
    refine (toNat_pack_magnitudeOf (-signOf value.toBits.toBitVec)
      ((isFinite_iff value).mp hfinite) hpositive).trans ?_
    omega

/-! ### Negative doubles -/

theorem compare_zero_of_finite (sign : Sign) {mantissa : Nat} {exponent : Int}
    (hpositive : 0 < mantissa) :
    (UnpackedFloat.finite sign mantissa exponent hpositive).compare (.zero .positive) =
        some .lt ↔ sign.toBitVec.toNat = 1 := by
  cases sign with
  | negative => exact iff_of_true rfl rfl
  | positive => exact iff_of_false (by rintro ⟨⟩) (by rintro ⟨⟩)

theorem compare_zero_iff
    (hfinite : (UnpackedFloat.unpack Format.binary64 bits).isFinite = true) :
    (UnpackedFloat.unpack Format.binary64 bits).compare (.zero .positive) = some .lt ↔
      2 ^ 63 < bits.toNat := by
  have hsign := toNat_signOf bits
  have hbound : bits.toNat < 2 ^ 64 := bits.isLt
  rcases unpack_of_isFinite hfinite with ⟨hzero, hunpack⟩ | ⟨hpositive, hunpack⟩
  · rw [hunpack]
    refine iff_of_false (by rintro ⟨⟩) ?_
    omega
  · have hother : bits.toNat % 2 ^ 63 ≠ 0 := by
      intro hnone
      rw [← magnitudeOf_mod, hnone] at hpositive
      exact absurd hpositive (by decide)
    rw [hunpack, compare_zero_of_finite, hsign]
    omega

/-- The negative finite doubles are those with the highest bit and another one set. -/
theorem lt_zero_iff (hfinite : value.isFinite = true) :
    value < 0.0 ↔ 2 ^ 63 < value.toBits.toNat := by
  have hlt : value < 0.0 ↔
      (UnpackedFloat.unpack Format.binary64 value.toBits.toBitVec).lt (.zero .positive) = true := by
    show decide (value.toModel < (0.0 : Float).toModel) = true ↔ _
    rw [decide_eq_true_iff]
    rfl
  rw [hlt, UnpackedFloat.lt, beq_iff_eq, compare_zero_iff (isFinite_unpack hfinite)]
  rfl

theorem isFinite_neg (hfinite : value.isFinite = true) : (-value).isFinite = true := by
  rw [isFinite_iff] at hfinite ⊢
  rw [toNat_toBits_neg ((isFinite_iff value).mpr hfinite)]
  omega

/-- A finite double that is negated twice is what it was. -/
theorem neg_neg_of_isFinite (hfinite : value.isFinite = true) : -(-value) = value := by
  have hbound : value.toBits.toNat < 2 ^ 64 := value.toBits.toBitVec.isLt
  refine eq_of_toNat_toBits ?_
  rw [toNat_toBits_neg (isFinite_neg hfinite), toNat_toBits_neg hfinite]
  omega

/-- The negation of a negative double has no sign. -/
theorem unsigned_neg_of_lt_zero (hfinite : value.isFinite = true) (hnegative : value < 0.0) :
    (-value).toBits.toNat < 2 ^ 63 := by
  have hbound : value.toBits.toNat < 2 ^ 64 := value.toBits.toBitVec.isLt
  rw [lt_zero_iff hfinite] at hnegative
  rw [toNat_toBits_neg hfinite]
  omega

/-- Of the doubles that are not less than zero, the negative zero alone has a sign. -/
theorem unsigned_of_not_lt_zero (hfinite : value.isFinite = true) (hnonnegative : ¬value < 0.0)
    (hzero : value ≠ -0.0) : value.toBits.toNat < 2 ^ 63 := by
  have hminus : (-0.0 : Float).toBits.toNat = 2 ^ 63 := rfl
  have hother : value.toBits.toNat ≠ 2 ^ 63 :=
    fun hsame ↦ hzero (eq_of_toNat_toBits (hsame.trans hminus.symm))
  rw [lt_zero_iff hfinite] at hnonnegative
  omega

/-! ### The text of a negative double -/

/-- A finite double is taken apart into its highest bit and the magnitude of the others. -/
theorem decode_of_isFinite (hfinite : value.isFinite = true) :
    decode value =
      .finite (value.toBits.toNat / 2 ^ 63 == 1) (magnitudeOf value.toBits.toNat) := by
  rw [isFinite_iff] at hfinite
  show (if value.toBits.toNat / 2 ^ 52 % 2 ^ 11 = 2 ^ 11 - 1 then _ else _) = _
  rw [if_neg hfinite, magnitudeOf]
  show (if value.toBits.toNat / 2 ^ 52 % 2 ^ 11 = 0 then _ else _) = _
  split <;> rfl

/-- A negative double is written as a minus sign and its negation. -/
theorem shortestCharacters_of_lt_zero (hfinite : value.isFinite = true)
    (hnegative : value < 0.0) :
    shortestCharacters value = '-' :: shortestCharacters (-value) := by
  have hbound : value.toBits.toNat < 2 ^ 64 := value.toBits.toBitVec.isLt
  have hneg := toNat_toBits_neg hfinite
  rw [lt_zero_iff hfinite] at hnegative
  have hset : value.toBits.toNat / 2 ^ 63 = 1 := by omega
  have hclear : (-value).toBits.toNat / 2 ^ 63 = 0 := by omega
  have hrest : (-value).toBits.toNat % 2 ^ 63 = value.toBits.toNat % 2 ^ 63 := by omega
  rw [shortestCharacters, shortestCharacters, decode_of_isFinite hfinite,
    decode_of_isFinite (isFinite_neg hfinite), hset, hclear, ← magnitudeOf_mod, ← hrest,
    magnitudeOf_mod]
  rfl

end Formulary.Number
