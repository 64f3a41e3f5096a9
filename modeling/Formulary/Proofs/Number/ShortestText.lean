import Formulary.Proofs.Number.PlainNumeral
import Formulary.Proofs.Number.ShortestDecimal

/-!
# The text of a double is read back

The text of a decimal without an exponent is a numeral for the same number,
`exists_numeral_positional`. So every finite double without a sign is written as a numeral that is
read back as the double, `exists_numeral_shortestCharacters`.
-/

set_option autoImplicit false
set_option relaxedAutoImplicit false

namespace Formulary.Number

open Formulary.Text

variable {figures : List Char}

/-! ### Digits -/

theorem naturalValue_digits (number : Nat) : naturalValue (digits number) = number :=
  Nat.ofDigitChars_ten_toDigits

theorem naturalValue_append_zeros (figures : List Char) (count : Nat) :
    naturalValue (figures ++ zeros count) = naturalValue figures * 10 ^ count := by
  show Nat.ofDigitChars 10 (figures ++ List.replicate count '0') 0 = _
  rw [Nat.ofDigitChars_append, Nat.ofDigitChars_replicate_zero, mul_comm]
  rfl

theorem naturalValue_zeros_append (count : Nat) (figures : List Char) :
    naturalValue (zeros count ++ figures) = naturalValue figures := by
  show Nat.ofDigitChars 10 (List.replicate count '0' ++ figures) 0 = _
  rw [Nat.ofDigitChars_append, Nat.ofDigitChars_replicate_zero, mul_zero]
  rfl

/-! ### Numerals -/

/-- The text of a decimal is a numeral for the same number. -/
theorem exists_numeral_positional (decimal : Decimal) :
    ∃ numeral : Numeral, numeral.WellFormed ∧ decimal.positional = numeral.characters ∧
      numeral.decimal.value = decimal.value := by
  rw [Decimal.positional]
  split
  · rename_i hwhole
    refine ⟨⟨digits decimal.coefficient ++ zeros decimal.exponent.toNat, none, none⟩,
      ⟨?_, rfl, Or.inl ?_, by simp⟩, ?_, ?_⟩
    · show (digits _ ++ zeros _).all isAsciiDigit = true
      rw [List.all_append, all_isAsciiDigit_digits, all_isAsciiDigit_zeros, Bool.and_self]
    · exact fun hnone ↦ Nat.toDigits_ne_nil (List.append_eq_nil_iff.mp hnone).1
    · simp [Numeral.characters, fractionCharacters, exponentCharacters]
    · have hpower : (10 : ℚ) ^ decimal.exponent = 10 ^ decimal.exponent.toNat := by
        rw [← zpow_natCast, Int.toNat_of_nonneg hwhole]
      simp only [Numeral.decimal, Decimal.value, Option.getD_none, List.append_nil,
        naturalValue_append_zeros, naturalValue_digits, hpower]
      simp
  · rename_i hfraction
    obtain ⟨whole, fraction, hnonempty, hwhole, hfigures, hlength, hsplit, htext⟩ :=
      exists_pointed (all_isAsciiDigit_digits decimal.coefficient) (-decimal.exponent).toNat
    have hsome : fraction.isEmpty = false := by
      rw [List.isEmpty_eq_false_iff, ← List.length_pos_iff]
      omega
    rw [hsome, if_neg Bool.false_ne_true] at htext
    refine ⟨⟨whole, some fraction, none⟩, ⟨hwhole, hfigures, Or.inl hnonempty, by simp⟩, ?_, ?_⟩
    · rw [htext]
      simp [Numeral.characters, fractionCharacters, exponentCharacters]
    · have hexponent : 0 - (fraction.length : ℤ) = decimal.exponent := by omega
      simp only [Numeral.decimal, Decimal.value, Option.getD_some, Option.elim_none, hsplit,
        naturalValue_zeros_append, naturalValue_digits, hexponent]

end Formulary.Number

namespace Formulary

open Formulary.Number Formulary.Text

variable {value : Float}

/-! ### Reading back -/

/-- A finite double without a sign is written as a numeral for it. -/
theorem exists_numeral_shortestCharacters (hfinite : value.isFinite = true)
    (hunsigned : value.toBits.toNat < 2 ^ 63) :
    ∃ numeral : Numeral, numeral.WellFormed ∧ shortestCharacters value = numeral.characters ∧
      numeral.value = value := by
  rcases Nat.eq_zero_or_pos value.toBits.toNat with hnone | hsome
  · obtain rfl : value = 0.0 := eq_of_toNat_toBits hnone
    refine ⟨⟨['0'], none, none⟩, ⟨rfl, rfl, Or.inl (List.cons_ne_nil _ _), by simp⟩, ?_, ?_⟩ <;>
      decide +kernel
  · have hvalue : IsPositive value := ⟨hfinite, hsome, hunsigned⟩
    obtain ⟨numeral, hnumeral, htext, hsame⟩ :=
      exists_numeral_positional (magnitudeOf value.toBits.toNat).shortest
    have hsign : (value.toBits.toNat / 2 ^ 63 == 1) = false := by
      rw [Nat.div_eq_of_lt hunsigned]
      rfl
    refine ⟨numeral, hnumeral, ?_, toDouble_of_covers hvalue ?_⟩
    · rw [shortestCharacters, decode_of_isFinite hfinite, hsign]
      exact htext
    · rw [hsame]
      exact Magnitude.covers_shortest hvalue.isCanonical

end Formulary
