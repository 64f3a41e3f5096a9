import Formulary.Number.Numeral
import Formulary.Proofs.Text.CharacterClass

/-!
# Numerals and what follows them

`Numeral.WellFormed` is what a text must be to be a numeral, and scanning yields nothing else,
`wellFormed_of_scan`. A numeral ends in front of a text that makes it no longer, `Numeral.EndsAt`:
the text does not go on with a digit nor, unless the numeral has them already, with a point or an
exponent. A well-formed numeral is scanned off just such texts, `scan_characters_append_iff`, and so
off any text that does not go on with a digit, a point or the letter of an exponent,
`scan_characters_append`.
-/

set_option autoImplicit false
set_option relaxedAutoImplicit false

namespace Formulary.Number

open Formulary.Text

/-! ### Well-formed numerals -/

/-- An exponent as it may be written. -/
structure Exponent.WellFormed (exponent : Exponent) : Prop where
  letter : exponent.letter = 'e' ∨ exponent.letter = 'E'
  sign : ∀ sign ∈ exponent.sign, sign = '+' ∨ sign = '-'
  digits : exponent.figures.all isAsciiDigit = true
  nonempty : exponent.figures ≠ []

/-- A numeral as it may be written. -/
structure Numeral.WellFormed (numeral : Numeral) : Prop where
  whole : numeral.whole.all isAsciiDigit = true
  fraction : (numeral.fraction.getD []).all isAsciiDigit = true
  nonempty : numeral.whole ≠ [] ∨ numeral.fraction.getD [] ≠ []
  exponent : ∀ exponent ∈ numeral.exponent, exponent.WellFormed

/-- A well-formed numeral starts with a digit or a point. -/
theorem Numeral.WellFormed.exists_cons {numeral : Numeral} (hnumeral : numeral.WellFormed) :
    ∃ first others, numeral.characters = first :: others ∧
      (isAsciiDigit first = true ∨ first = '.') := by
  obtain ⟨whole, fraction, exponent⟩ := numeral
  obtain ⟨hwhole, _, hnonempty, _⟩ := hnumeral
  cases whole with
  | cons first others =>
    exact ⟨first, _, rfl, Or.inl (List.all_eq_true.mp hwhole _ List.mem_cons_self)⟩
  | nil =>
    cases fraction with
    | none => simp at hnonempty
    | some figures => exact ⟨'.', _, rfl, Or.inr rfl⟩

/-- A numeral is not made longer by a text behind it. -/
structure Numeral.EndsAt (numeral : Numeral) (rest : List Char) : Prop where
  digit : rest.head?.any isAsciiDigit = false
  point : numeral.fraction = none → numeral.exponent = none → rest.head? ≠ some '.'
  exponent : numeral.exponent = none → scanExponent rest = none

/-- Whether a character would make a numeral longer that it follows. -/
def continuesNumeral (character : Char) : Bool :=
  isAsciiDigit character || character == '.' || character == 'e' || character == 'E'

/-! ### Scanning yields well-formed numerals -/

theorem takeSign_sign (text : List Char) : ∀ sign ∈ (takeSign text).1, sign = '+' ∨ sign = '-' := by
  cases text with
  | nil => simp [takeSign]
  | cons character rest =>
    rw [takeSign]
    split
    · rename_i hsign
      simpa using hsign
    · simp

theorem wellFormed_of_scanExponent {text rest : List Char} {exponent : Exponent}
    (hscan : scanExponent text = some (exponent, rest)) : exponent.WellFormed := by
  cases text with
  | nil => simp [scanExponent] at hscan
  | cons letter after =>
    simp only [scanExponent] at hscan
    split at hscan
    · rename_i hletter
      split at hscan
      · simp at hscan
      · rename_i hfigures
        simp only [Option.some.injEq, Prod.mk.injEq] at hscan
        obtain ⟨rfl, -⟩ := hscan
        exact ⟨hletter, takeSign_sign after, List.all_takeWhile, by simpa using hfigures⟩
    · simp at hscan

theorem takeFraction_digits (text : List Char) :
    ((takeFraction text).1.getD []).all isAsciiDigit = true := by
  cases text with
  | nil => rfl
  | cons character rest =>
    rw [takeFraction]
    split
    · exact List.all_takeWhile
    · rfl

/-- What is scanned is well-formed. -/
theorem wellFormed_of_scan {text rest : List Char} {numeral : Numeral}
    (hscan : Numeral.scan text = some (numeral, rest)) : numeral.WellFormed := by
  simp only [Numeral.scan] at hscan
  split at hscan
  · simp at hscan
  · rename_i hsome
    simp only [Option.some.injEq, Prod.mk.injEq] at hscan
    obtain ⟨rfl, -⟩ := hscan
    refine ⟨List.all_takeWhile, takeFraction_digits _, ?_, ?_⟩
    · rw [Bool.and_eq_true, List.isEmpty_iff, List.isEmpty_iff] at hsome
      exact Decidable.not_and_iff_not_or_not.mp hsome
    · intro exponent hexponent
      simp only [takeExponent] at hexponent
      split at hexponent
      · rename_i scanned after hscanned
        obtain rfl : scanned = exponent := by simpa using hexponent
        exact wellFormed_of_scanExponent hscanned
      · simp at hexponent

/-! ### Scanned numerals end at the rest -/

variable {numeral : Numeral} {rest : List Char}

theorem takeExponent_fst_none {text : List Char} (hnone : (takeExponent text).1 = none) :
    scanExponent text = none ∧ (takeExponent text).2 = text := by
  unfold takeExponent at hnone ⊢
  split at hnone
  · cases hnone
  · rename_i hscan
    rw [hscan]
    exact ⟨rfl, rfl⟩

theorem takeExponent_fst_some {text : List Char} {exponent : Exponent}
    (hsome : (takeExponent text).1 = some exponent) :
    (takeExponent text).2.head?.any isAsciiDigit = false := by
  unfold takeExponent at hsome ⊢
  split at hsome
  · rename_i scanned rest hscan
    cases text with
    | nil => cases hscan
    | cons letter after =>
      simp only [scanExponent] at hscan
      split at hscan
      · split at hscan
        · cases hscan
        · cases hscan
          exact head?_dropWhile_any isAsciiDigit _
      · cases hscan
  · cases hsome

theorem takeFraction_fst_none {text : List Char} (hnone : (takeFraction text).1 = none) :
    text.head? ≠ some '.' ∧ (takeFraction text).2 = text := by
  cases text with
  | nil => simp [takeFraction]
  | cons character rest =>
    rw [takeFraction] at hnone ⊢
    split at hnone
    · cases hnone
    · rename_i hpoint
      simp [hpoint]

theorem takeFraction_fst_some {text figures : List Char}
    (hsome : (takeFraction text).1 = some figures) :
    (takeFraction text).2.head?.any isAsciiDigit = false := by
  cases text with
  | nil => cases hsome
  | cons character rest =>
    rw [takeFraction] at hsome ⊢
    split at hsome
    · rename_i hpoint
      rw [if_pos hpoint]
      exact head?_dropWhile_any isAsciiDigit rest
    · cases hsome

theorem scanExponent_cons_eq_none_iff {letter : Char} {rest : List Char} :
    scanExponent (letter :: rest) = none ↔
      (letter = 'e' ∨ letter = 'E' → (takeSign rest).2.head?.any isAsciiDigit = false) := by
  by_cases hletter : letter = 'e' ∨ letter = 'E'
  · simp [scanExponent, hletter, isEmpty_takeWhile]
  · simp [scanExponent, hletter]

theorem scanExponent_of_append {text : List Char} (hnone : scanExponent (text ++ rest) = none) :
    scanExponent text = none := by
  cases text with
  | nil => rfl
  | cons letter after =>
    rw [List.cons_append, scanExponent_cons_eq_none_iff] at hnone
    refine scanExponent_cons_eq_none_iff.mpr fun hletter ↦ ?_
    have hdigits := hnone hletter
    cases after with
    | nil => rfl
    | cons first others =>
      rw [List.cons_append, takeSign] at hdigits
      rw [takeSign]
      split at hdigits
      · rename_i hsign
        rw [if_pos hsign]
        cases others with
        | nil => rfl
        | cons second others => exact hdigits
      · rename_i hsign
        rw [if_neg hsign]
        exact hdigits

/-- Where a numeral ends, it ends also if less follows. -/
theorem Numeral.EndsAt.of_append {front : List Char} (hends : numeral.EndsAt (front ++ rest)) :
    numeral.EndsAt front := by
  cases front with
  | nil => exact ⟨rfl, fun _ _ ↦ by simp, fun _ ↦ rfl⟩
  | cons first others =>
    exact ⟨hends.digit, hends.point, fun hnone ↦ scanExponent_of_append (hends.exponent hnone)⟩

/-- What is scanned ends at the rest. -/
theorem endsAt_of_scan {text : List Char} (hscan : Numeral.scan text = some (numeral, rest)) :
    numeral.EndsAt rest := by
  simp only [Numeral.scan] at hscan
  split at hscan
  · cases hscan
  · cases hscan
    refine ⟨?_, ?_, ?_⟩
    · cases hexponent : (takeExponent (takeFraction (text.dropWhile isAsciiDigit)).2).1 with
      | some exponent => exact takeExponent_fst_some hexponent
      | none =>
        rw [(takeExponent_fst_none hexponent).2]
        cases hfraction : (takeFraction (text.dropWhile isAsciiDigit)).1 with
        | some figures => exact takeFraction_fst_some hfraction
        | none =>
          rw [(takeFraction_fst_none hfraction).2]
          exact head?_dropWhile_any isAsciiDigit text
    · intro hfraction hexponent
      obtain ⟨hpoint, hbehind⟩ := takeFraction_fst_none hfraction
      rwa [(takeExponent_fst_none hexponent).2, hbehind]
    · intro hexponent
      obtain ⟨hnone, hbehind⟩ := takeExponent_fst_none hexponent
      rwa [hbehind]

/-! ### Well-formed numerals are scanned -/

theorem digit_ne_sign {character : Char} (hdigit : isAsciiDigit character = true) :
    ¬(character = '+' ∨ character = '-') := by
  rintro (rfl | rfl) <;> simp [isAsciiDigit] at hdigit

theorem takeSign_append_digits {sign : Option Char} {figures : List Char}
    (hsign : ∀ character ∈ sign, character = '+' ∨ character = '-')
    (hfigures : figures.all isAsciiDigit = true) (hnonempty : figures ≠ []) :
    takeSign (sign.toList ++ (figures ++ rest)) = (sign, figures ++ rest) := by
  cases sign with
  | some character => simp [takeSign, hsign character rfl]
  | none =>
    obtain ⟨first, others, rfl⟩ := List.exists_cons_of_ne_nil hnonempty
    have hfirst : isAsciiDigit first = true := List.all_eq_true.mp hfigures _ List.mem_cons_self
    simp [takeSign, digit_ne_sign hfirst]

theorem takeFraction_append_rest {fraction : Option (List Char)}
    (hfraction : (fraction.getD []).all isAsciiDigit = true)
    (hdigit : rest.head?.any isAsciiDigit = false) (hpoint : rest.head? ≠ some '.') :
    takeFraction (fractionCharacters fraction ++ rest) = (fraction, rest) := by
  cases fraction with
  | none =>
    cases rest with
    | nil => rfl
    | cons character rest =>
      have hother : character ≠ '.' := by simpa using hpoint
      simp [fractionCharacters, takeFraction, hother]
  | some figures =>
    have hfigures : figures.all isAsciiDigit = true := hfraction
    obtain ⟨htake, hdrop⟩ := takeWhile_run hfigures hdigit
    simp [fractionCharacters, takeFraction, htake, hdrop]

theorem head?_fraction_append (fraction : Option (List Char))
    (hdigit : rest.head?.any isAsciiDigit = false) :
    (fractionCharacters fraction ++ rest).head?.any isAsciiDigit = false := by
  cases fraction with
  | none => exact hdigit
  | some figures => rfl

theorem takeExponent_append_of_endsAt (hnumeral : numeral.WellFormed)
    (hends : numeral.EndsAt rest) :
    takeExponent (exponentCharacters numeral.exponent ++ rest) = (numeral.exponent, rest) := by
  cases hexponent : numeral.exponent with
  | none => rw [exponentCharacters, List.nil_append, takeExponent, hends.exponent hexponent]
  | some exponent =>
    obtain ⟨hletter, hsign, hfigures, hnonempty⟩ := hnumeral.exponent exponent hexponent
    obtain ⟨htake, hdrop⟩ := takeWhile_run hfigures hends.digit
    have hscan : scanExponent (exponent.characters ++ rest) = some (exponent, rest) := by
      rw [Exponent.characters, List.cons_append, List.cons_append, List.append_assoc, scanExponent,
        if_pos hletter, takeSign_append_digits hsign hfigures hnonempty]
      simp [htake, hdrop, hnonempty]
    rw [exponentCharacters, takeExponent, hscan]

theorem head?_exponent_append_of_endsAt (hnumeral : numeral.WellFormed)
    (hends : numeral.EndsAt rest) :
    (exponentCharacters numeral.exponent ++ rest).head?.any isAsciiDigit = false ∧
      (numeral.fraction = none →
        (exponentCharacters numeral.exponent ++ rest).head? ≠ some '.') := by
  cases hexponent : numeral.exponent with
  | none => exact ⟨hends.digit, fun hfraction ↦ hends.point hfraction hexponent⟩
  | some exponent =>
    show isAsciiDigit exponent.letter = false ∧ (_ → some exponent.letter ≠ some '.')
    rcases (hnumeral.exponent exponent hexponent).letter with hletter | hletter <;>
      rw [hletter] <;> exact ⟨by decide, fun _ ↦ by decide⟩

theorem takeFraction_append_of_endsAt (hnumeral : numeral.WellFormed)
    (hends : numeral.EndsAt rest) :
    takeFraction (fractionCharacters numeral.fraction ++
        (exponentCharacters numeral.exponent ++ rest)) =
      (numeral.fraction, exponentCharacters numeral.exponent ++ rest) := by
  obtain ⟨hdigit, hpoint⟩ := head?_exponent_append_of_endsAt hnumeral hends
  cases hfraction : numeral.fraction with
  | none => exact takeFraction_append_rest rfl hdigit (hpoint hfraction)
  | some figures =>
    have hfigures : figures.all isAsciiDigit = true := by
      simpa [hfraction] using hnumeral.fraction
    obtain ⟨htake, hdrop⟩ := takeWhile_run hfigures hdigit
    simp [fractionCharacters, takeFraction, htake, hdrop]

/-- A well-formed numeral is scanned off just the texts that it ends in front of. -/
theorem scan_characters_append_iff (hnumeral : numeral.WellFormed) :
    Numeral.scan (numeral.characters ++ rest) = some (numeral, rest) ↔ numeral.EndsAt rest := by
  refine ⟨endsAt_of_scan, fun hends ↦ ?_⟩
  obtain ⟨hdigit, _⟩ := head?_exponent_append_of_endsAt hnumeral hends
  obtain ⟨htake, hdrop⟩ :=
    takeWhile_run hnumeral.whole (head?_fraction_append numeral.fraction hdigit)
  have hsome : ¬(numeral.whole.isEmpty && (numeral.fraction.getD []).isEmpty) = true := by
    rw [Bool.and_eq_true, List.isEmpty_iff, List.isEmpty_iff]
    exact Decidable.not_and_iff_not_or_not.mpr hnumeral.nonempty
  rw [Numeral.characters, List.append_assoc, List.append_assoc, Numeral.scan]
  simp only [htake, hdrop, takeFraction_append_of_endsAt hnumeral hends,
    takeExponent_append_of_endsAt hnumeral hends, hsome, if_false, Bool.false_eq_true]

/-- A well-formed numeral is scanned off a text that does not continue it. -/
theorem scan_characters_append (hnumeral : numeral.WellFormed)
    (hrest : rest.head?.any continuesNumeral = false) :
    Numeral.scan (numeral.characters ++ rest) = some (numeral, rest) := by
  refine (scan_characters_append_iff hnumeral).mpr ?_
  cases rest with
  | nil => exact ⟨rfl, fun _ _ ↦ by simp, fun _ ↦ rfl⟩
  | cons character rest =>
    have hother : continuesNumeral character = false := hrest
    simp only [continuesNumeral, Bool.or_eq_false_iff, beq_eq_false_iff_ne] at hother
    obtain ⟨⟨⟨hdigit, hpoint⟩, hsmall⟩, hcapital⟩ := hother
    refine ⟨hdigit, fun _ _ ↦ by simpa using hpoint, fun _ ↦ ?_⟩
    rw [scanExponent, if_neg (by simp [hsmall, hcapital])]

/-- A well-formed numeral is scanned off its own text. -/
theorem scan_characters (hnumeral : numeral.WellFormed) :
    Numeral.scan numeral.characters = some (numeral, []) := by
  have hscan : Numeral.scan (numeral.characters ++ []) = some (numeral, []) :=
    scan_characters_append hnumeral rfl
  rwa [List.append_nil] at hscan

/-- A text is that of one numeral at most. -/
theorem Numeral.WellFormed.eq_of_characters_eq {other : Numeral} (hnumeral : numeral.WellFormed)
    (hother : other.WellFormed) (hsame : numeral.characters = other.characters) :
    numeral = other := by
  have hscan := scan_characters hnumeral
  rw [hsame, scan_characters hother] at hscan
  exact (congrArg Prod.fst (Option.some.inj hscan)).symm

end Formulary.Number
