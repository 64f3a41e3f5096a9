import Formulary.Proofs.Number.NumeralText
import Formulary.Proofs.Text.CharacterLanguage

/-!
# The language of numerals

`numeralTexts` is the form of a number as a language: digits with an optional fraction and an
optional exponent, or a fraction alone with an optional exponent. Its texts are those of the
well-formed numerals, `mem_numeralTexts_iff`. The main statement, `isLongest_numeralTexts_iff`, says
that scanning takes the longest numeral off the front of a text: a longer one would be scanned off
its own text in two ways.
-/

set_option autoImplicit false
set_option relaxedAutoImplicit false

namespace Formulary.Number

open Computability
open Formulary.Text

variable {text word rest extra : List Char} {numeral : Numeral}

/-! ### Forms -/

/-- Whether a character is a sign. -/
def isSign (character : Char) : Bool :=
  character == '+' || character == '-'

/-- Whether a character is the letter of an exponent. -/
def isExponentLetter (character : Char) : Bool :=
  character == 'e' || character == 'E'

/-- The texts of exponents: a letter, an optional sign and digits. -/
def exponentTexts : Language Char :=
  oneOf isExponentLetter * ((1 + oneOf isSign) * someOf isAsciiDigit)

/-- The texts of numerals: digits, then optionally a point that digits may follow, or a point and
digits; in both cases an optional exponent comes last. -/
def numeralTexts : Language Char :=
  someOf isAsciiDigit * ((1 + oneOf (· == '.') * (oneOf isAsciiDigit)∗) * (1 + exponentTexts)) +
    oneOf (· == '.') * (someOf isAsciiDigit * (1 + exponentTexts))

/-- The texts of numerals that a sign may stand before. -/
def signedNumeralTexts : Language Char :=
  (1 + oneOf isSign) * numeralTexts

/-! ### Texts of numerals -/

theorem isSign_iff {character : Char} :
    isSign character = true ↔ character = '+' ∨ character = '-' := by
  rw [isSign, Bool.or_eq_true, beq_iff_eq, beq_iff_eq]

theorem mem_point_mul {language : Language Char} : text ∈ oneOf (· == '.') * language ↔
    ∃ rest ∈ language, text = '.' :: rest := by
  simp [mem_oneOf_mul]

theorem mem_one_add_oneOf {inClass : Char → Bool} : text ∈ 1 + oneOf inClass ↔
    ∃ character? : Option Char, (∀ character ∈ character?, inClass character = true) ∧
      text = character?.toList :=
  mem_one_add_iff Option.toList rfl fun _ ↦ Iff.rfl

theorem mem_exponentTexts_iff : text ∈ exponentTexts ↔
    ∃ exponent : Exponent, exponent.WellFormed ∧ text = exponent.characters := by
  rw [exponentTexts, mem_oneOf_mul]
  constructor
  · rintro ⟨letter, _, hletter, ⟨_, hmark, figures, hfigures, rfl⟩, rfl⟩
    obtain ⟨sign, hsign, rfl⟩ := mem_one_add_oneOf.mp hmark
    obtain ⟨hsome, hdigits⟩ := mem_someOf.mp hfigures
    refine ⟨⟨letter, sign, figures⟩, ⟨?_, fun mark hmember ↦ ?_, hdigits, hsome⟩, rfl⟩
    · simpa [isExponentLetter] using hletter
    · exact isSign_iff.mp (hsign mark hmember)
  · rintro ⟨⟨letter, sign, figures⟩, ⟨hletter, hsign, hdigits, hsome⟩, rfl⟩
    refine ⟨letter, sign.toList ++ figures, ?_, ?_, rfl⟩
    · simpa [isExponentLetter] using hletter
    · exact Language.append_mem_mul
        (mem_one_add_oneOf.mpr ⟨sign, fun mark hmember ↦ isSign_iff.mpr (hsign mark hmember), rfl⟩)
        (mem_someOf.mpr ⟨hsome, hdigits⟩)

theorem mem_one_add_exponentTexts_iff : text ∈ 1 + exponentTexts ↔
    ∃ exponent? : Option Exponent, (∀ exponent ∈ exponent?, exponent.WellFormed) ∧
      text = exponentCharacters exponent? :=
  mem_one_add_iff exponentCharacters rfl fun _ ↦ mem_exponentTexts_iff

theorem mem_one_add_fraction_iff :
    text ∈ 1 + oneOf (· == '.') * (oneOf isAsciiDigit)∗ ↔
      ∃ fraction : Option (List Char), (fraction.getD []).all isAsciiDigit = true ∧
        text = fractionCharacters fraction := by
  have hfigures (text : List Char) : text ∈ oneOf (· == '.') * (oneOf isAsciiDigit)∗ ↔
      ∃ figures : List Char, figures.all isAsciiDigit = true ∧
        text = fractionCharacters (some figures) := by
    rw [mem_point_mul]
    exact exists_congr fun figures ↦ and_congr_left' mem_kstar_oneOf
  rw [mem_one_add_iff fractionCharacters rfl hfigures]
  refine exists_congr fun fraction ↦ and_congr_left' ?_
  cases fraction <;> simp

/-- The texts of the language are those of well-formed numerals. -/
theorem mem_numeralTexts_iff : text ∈ numeralTexts ↔
    ∃ numeral : Numeral, numeral.WellFormed ∧ text = numeral.characters := by
  rw [numeralTexts, Language.mem_add, mem_point_mul]
  constructor
  · rintro (⟨whole, hwhole, _, ⟨_, hpoint, _, hletter, rfl⟩, rfl⟩ |
      ⟨_, ⟨figures, hfigures, _, hletter, rfl⟩, rfl⟩)
    · obtain ⟨hsome, hdigits⟩ := mem_someOf.mp hwhole
      obtain ⟨fraction, hfraction, rfl⟩ := mem_one_add_fraction_iff.mp hpoint
      obtain ⟨exponent, hexponent, rfl⟩ := mem_one_add_exponentTexts_iff.mp hletter
      exact ⟨⟨whole, fraction, exponent⟩, ⟨hdigits, hfraction, Or.inl hsome, hexponent⟩,
        (List.append_assoc _ _ _).symm⟩
    · obtain ⟨hsome, hdigits⟩ := mem_someOf.mp hfigures
      obtain ⟨exponent, hexponent, rfl⟩ := mem_one_add_exponentTexts_iff.mp hletter
      exact ⟨⟨[], some figures, exponent⟩, ⟨rfl, hdigits, Or.inr hsome, hexponent⟩, rfl⟩
  · rintro ⟨⟨whole, fraction, exponent⟩, ⟨hwhole, hfraction, hsome, hexponent⟩, rfl⟩
    have hletter := mem_one_add_exponentTexts_iff.mpr ⟨exponent, hexponent, rfl⟩
    rw [Numeral.characters, List.append_assoc]
    by_cases hnone : whole = []
    · obtain hfigures := hsome.resolve_left (not_not.mpr hnone)
      cases fraction with
      | none => exact absurd rfl hfigures
      | some figures =>
        subst hnone
        exact Or.inr ⟨_,
          Language.append_mem_mul (mem_someOf.mpr ⟨hfigures, hfraction⟩) hletter, rfl⟩
    · exact Or.inl (Language.append_mem_mul (mem_someOf.mpr ⟨hnone, hwhole⟩)
        (Language.append_mem_mul (mem_one_add_fraction_iff.mpr ⟨fraction, hfraction, rfl⟩) hletter))

/-! ### Longest numerals -/

/-- A text that begins with a numeral can be scanned. -/
theorem isSome_scan_append (hnumeral : numeral.WellFormed) (rest : List Char) :
    (Numeral.scan (numeral.characters ++ rest)).isSome = true := by
  obtain ⟨whole, fraction, exponent⟩ := numeral
  obtain ⟨hwhole, hfraction, hsome, -⟩ := hnumeral
  cases whole with
  | cons digit figures =>
    have hdigit : isAsciiDigit digit = true := List.all_eq_true.mp hwhole _ List.mem_cons_self
    simp [Numeral.scan, Numeral.characters, hdigit]
  | nil =>
    obtain ⟨digit, others, hfigures⟩ := List.exists_cons_of_ne_nil (hsome.resolve_left (· rfl))
    cases fraction with
    | none => cases hfigures
    | some figures =>
      obtain rfl : figures = digit :: others := hfigures
      have hdigit : isAsciiDigit digit = true := List.all_eq_true.mp hfraction _ List.mem_cons_self
      have hpoint : isAsciiDigit '.' = false := by decide
      simp [Numeral.scan, Numeral.characters, fractionCharacters, takeFraction, hpoint, hdigit]

/-- No numeral at the front of a text is longer than the one that is scanned. -/
theorem length_le_of_scan {other : Numeral} (hscan : Numeral.scan text = some (numeral, rest))
    (hother : other.WellFormed) (hbegins : other.characters <+: text) :
    other.characters.length ≤ numeral.characters.length := by
  by_contra hlonger
  have hnumeral := wellFormed_of_scan hscan
  rw [Numeral.eq_append_of_scan hscan] at hbegins
  obtain ⟨extra, hextra⟩ := List.prefix_of_prefix_length_le (List.prefix_append _ rest) hbegins
    (Nat.le_of_not_le hlonger)
  rw [← hextra, List.prefix_append_right_inj] at hbegins
  obtain ⟨behind, rfl⟩ := hbegins
  -- scanned off its own text, the longer numeral is read to its end and also cut short
  have hcut := (scan_characters_append_iff hnumeral).mpr (endsAt_of_scan hscan).of_append
  rw [hextra, scan_characters hother] at hcut
  obtain rfl : [] = extra := congrArg Prod.snd (Option.some.inj hcut)
  rw [List.append_nil] at hextra
  exact hlonger (Nat.le_of_eq (congrArg List.length hextra.symm))

/-- Scanning takes the longest numeral off the front of a text, if there is one. -/
theorem isLongest_numeralTexts_iff : IsLongest numeralTexts text word ↔
    ∃ numeral rest, Numeral.scan text = some (numeral, rest) ∧ word = numeral.characters := by
  have hscanned {numeral : Numeral} {rest : List Char}
      (hscan : Numeral.scan text = some (numeral, rest)) :
      IsLongest numeralTexts text numeral.characters := by
    refine ⟨mem_numeralTexts_iff.mpr ⟨numeral, wellFormed_of_scan hscan, rfl⟩,
      ⟨rest, (Numeral.eq_append_of_scan hscan).symm⟩, fun other hother hbegins ↦ ?_⟩
    obtain ⟨longer, hlonger, rfl⟩ := mem_numeralTexts_iff.mp hother
    exact length_le_of_scan hscan hlonger hbegins
  constructor
  · intro hword
    obtain ⟨numeral, hnumeral, rfl⟩ := mem_numeralTexts_iff.mp hword.mem
    obtain ⟨behind, rfl⟩ := hword.begins
    obtain ⟨⟨scanned, rest⟩, hscan⟩ :=
      Option.isSome_iff_exists.mp (isSome_scan_append hnumeral behind)
    exact ⟨scanned, rest, hscan, hword.eq (hscanned hscan)⟩
  · rintro ⟨numeral, rest, hscan, rfl⟩
    exact hscanned hscan

end Formulary.Number
