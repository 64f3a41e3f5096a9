import Formulary.Proofs.Number.NumeralText

/-!
# Plain numerals

A numeral is plain if it has no exponent. The text of a decimal number without an exponent is a
plain numeral, `isPlainNumeral_positional`, however many zeros it takes.
-/

set_option autoImplicit false
set_option relaxedAutoImplicit false

namespace Formulary.Number

open Formulary.Text

/-! ### Plain numerals -/

/-- A text that is a numeral without an exponent. -/
def IsPlainNumeral (text : List Char) : Prop :=
  ∃ numeral : Numeral, numeral.WellFormed ∧ numeral.exponent = none ∧ text = numeral.characters

variable {whole fraction : List Char}

theorem isPlainNumeral_of_digits (hwhole : whole.all isAsciiDigit = true) (hnonempty : whole ≠ []) :
    IsPlainNumeral whole :=
  ⟨⟨whole, none, none⟩, ⟨hwhole, rfl, Or.inl hnonempty, by simp⟩, rfl, by
    simp [Numeral.characters, fractionCharacters, exponentCharacters]⟩

theorem isPlainNumeral_of_point (hwhole : whole.all isAsciiDigit = true) (hnonempty : whole ≠ [])
    (hfraction : fraction.all isAsciiDigit = true) : IsPlainNumeral (whole ++ '.' :: fraction) :=
  ⟨⟨whole, some fraction, none⟩, ⟨hwhole, hfraction, Or.inl hnonempty, by simp⟩, rfl, by
    simp [Numeral.characters, fractionCharacters, exponentCharacters]⟩

/-- A plain numeral holds digits and a point. -/
theorem IsPlainNumeral.digit_or_point {text : List Char} (htext : IsPlainNumeral text)
    {character : Char} (hcharacter : character ∈ text) :
    isAsciiDigit character = true ∨ character = '.' := by
  obtain ⟨⟨whole, fraction, exponent⟩, hnumeral, rfl, rfl⟩ := htext
  have hwhole := List.all_eq_true.mp hnumeral.whole
  have hfraction := List.all_eq_true.mp hnumeral.fraction
  rw [Numeral.characters, exponentCharacters, List.append_nil] at hcharacter
  rcases List.mem_append.mp hcharacter with hbefore | hbehind
  · exact Or.inl (hwhole character hbefore)
  · cases fraction with
    | none => cases hbehind
    | some figures =>
      rcases List.mem_cons.mp hbehind with rfl | hfigure
      · exact Or.inr rfl
      · exact Or.inl (hfraction character hfigure)

/-! ### Decimals -/

theorem all_isAsciiDigit_digits (number : Nat) : (digits number).all isAsciiDigit = true := by
  refine List.all_eq_true.mpr fun character hcharacter ↦ ?_
  have hfigure := Nat.isDigit_of_mem_toDigits (by decide) (by decide) hcharacter
  simpa [Char.isDigit, isAsciiDigit, Char.le_def] using hfigure

theorem all_isAsciiDigit_zeros (count : Nat) : (zeros count).all isAsciiDigit = true := by
  refine List.all_eq_true.mpr fun character hcharacter ↦ ?_
  obtain rfl := List.eq_of_mem_replicate hcharacter
  decide

/-- Where the point stands: so many digits are behind it, and at least one is before it. -/
theorem exists_pointed {figures : List Char} (hfigures : figures.all isAsciiDigit = true)
    (places : Nat) : ∃ whole fraction, whole ≠ [] ∧ whole.all isAsciiDigit = true ∧
      fraction.all isAsciiDigit = true ∧ fraction.length = places ∧
      whole ++ fraction = zeros (places + 1 - figures.length) ++ figures ∧
      pointed figures places = if fraction.isEmpty then whole else whole ++ '.' :: fraction := by
  generalize hpadded : zeros (places + 1 - figures.length) ++ figures = padded
  have hdigits : padded.all isAsciiDigit = true := by
    rw [← hpadded, List.all_append, all_isAsciiDigit_zeros, hfigures, Bool.and_self]
  have hlength : places < padded.length := by
    rw [← hpadded, List.length_append, zeros, List.length_replicate]
    omega
  refine ⟨padded.take (padded.length - places), padded.drop (padded.length - places), ?_, ?_, ?_,
    ?_, List.take_append_drop _ _, ?_⟩
  · rw [← List.length_pos_iff, List.length_take]
    omega
  · exact List.all_eq_true.mpr fun character hcharacter ↦
      List.all_eq_true.mp hdigits character (List.mem_of_mem_take hcharacter)
  · exact List.all_eq_true.mpr fun character hcharacter ↦
      List.all_eq_true.mp hdigits character (List.mem_of_mem_drop hcharacter)
  · rw [List.length_drop]
    omega
  · rw [pointed, hpadded]

/-- Digits with a point in them are a plain numeral. -/
theorem isPlainNumeral_pointed {figures : List Char} (hfigures : figures.all isAsciiDigit = true)
    (places : Nat) : IsPlainNumeral (pointed figures places) := by
  obtain ⟨whole, fraction, hnonempty, hwhole, hfraction, -, -, htext⟩ :=
    exists_pointed hfigures places
  rw [htext]
  split
  · exact isPlainNumeral_of_digits hwhole hnonempty
  · exact isPlainNumeral_of_point hwhole hnonempty hfraction

/-- The text of a decimal is a plain numeral. -/
theorem isPlainNumeral_positional (decimal : Decimal) : IsPlainNumeral decimal.positional := by
  rw [Decimal.positional]
  split
  · refine isPlainNumeral_of_digits ?_ fun hnone ↦ ?_
    · rw [List.all_append, all_isAsciiDigit_digits, all_isAsciiDigit_zeros, Bool.and_self]
    · exact Nat.toDigits_ne_nil (List.append_eq_nil_iff.mp hnone).1
  · exact isPlainNumeral_pointed (all_isAsciiDigit_digits _) _

end Formulary.Number
