import Formulary.Proofs.Formula.Lexing
import Formulary.Proofs.Number.NumeralLanguage
import Formulary.Solution.Quantity

/-!
# The longest numeral of a text

Numbers are read off the front of two kinds of text: formulas, where the lexer reads them without a
sign, and values, where white space and a sign may come first. A sign is no part of a numeral, so
the longest signed numeral of a text is its sign and the longest numeral behind it,
`isLongest_signedNumeralTexts_iff`. By the main statement, `numbers_are_longest_numerals`, both
readers take all that a number can go on with and no more, and where a text has no sign in front
they read the same number.
-/

set_option autoImplicit false
set_option relaxedAutoImplicit false

namespace Formulary.Number

open Computability
open Formulary.Text

variable {text word rest : List Char} {numeral : Numeral} {sign : Option Char} {value : Float}

/-! ### Signs -/

/-- The double that a text of a signed numeral is read as: the one nearest to the numeral, negated
behind a minus sign. -/
def ReadAsDouble (text : List Char) (value : Float) : Prop :=
  ∃ (sign : Option Char) (numeral : Numeral), (∀ mark ∈ sign, isSign mark = true) ∧
    numeral.WellFormed ∧ text = sign.toList ++ numeral.characters ∧
    value = if sign = some '-' then -numeral.value else numeral.value

theorem mem_signedNumeralTexts_iff : text ∈ signedNumeralTexts ↔
    ∃ (sign : Option Char) (numeral : Numeral), (∀ mark ∈ sign, isSign mark = true) ∧
      numeral.WellFormed ∧ text = sign.toList ++ numeral.characters := by
  rw [signedNumeralTexts, Language.mem_mul]
  constructor
  · rintro ⟨_, hmark, _, hunsigned, rfl⟩
    obtain ⟨sign, hsign, rfl⟩ := mem_one_add_oneOf.mp hmark
    obtain ⟨numeral, hnumeral, rfl⟩ := mem_numeralTexts_iff.mp hunsigned
    exact ⟨sign, numeral, hsign, hnumeral, rfl⟩
  · rintro ⟨sign, numeral, hsign, hnumeral, rfl⟩
    exact ⟨_, mem_one_add_oneOf.mpr ⟨sign, hsign, rfl⟩, _,
      mem_numeralTexts_iff.mpr ⟨numeral, hnumeral, rfl⟩, rfl⟩

/-- The sign in front of a numeral is all that is taken as one. -/
theorem takeSign_append_numeral (hsign : ∀ mark ∈ sign, isSign mark = true)
    (hnumeral : numeral.WellFormed) (rest : List Char) :
    takeSign (sign.toList ++ (numeral.characters ++ rest)) =
      (sign, numeral.characters ++ rest) := by
  cases sign with
  | some mark =>
    have hmark := isSign_iff.mp (hsign mark rfl)
    exact if_pos hmark
  | none =>
    obtain ⟨first, others, hcharacters, hfirst⟩ := hnumeral.exists_cons
    have hother : ¬(first = '+' ∨ first = '-') := by
      rcases hfirst with hdigit | rfl
      · exact digit_ne_sign hdigit
      · decide
    rw [hcharacters]
    exact if_neg hother

theorem isSign_of_takeSign : ∀ mark ∈ (takeSign text).1, isSign mark = true :=
  fun mark hmark ↦ isSign_iff.mpr (takeSign_sign text mark hmark)

/-- A signed numeral at the front of a text is the sign of the text and a numeral behind it. -/
theorem signed_prefix_iff : word ∈ signedNumeralTexts ∧ word <+: text ↔
    ∃ unsigned ∈ numeralTexts, unsigned <+: (takeSign text).2 ∧
      word = (takeSign text).1.toList ++ unsigned := by
  constructor
  · rintro ⟨hword, behind, rfl⟩
    obtain ⟨sign, numeral, hsign, hnumeral, rfl⟩ := mem_signedNumeralTexts_iff.mp hword
    rw [List.append_assoc, takeSign_append_numeral hsign hnumeral]
    exact ⟨_, mem_numeralTexts_iff.mpr ⟨numeral, hnumeral, rfl⟩, List.prefix_append _ _, rfl⟩
  · rintro ⟨unsigned, hunsigned, hbegins, rfl⟩
    obtain ⟨numeral, hnumeral, rfl⟩ := mem_numeralTexts_iff.mp hunsigned
    refine ⟨mem_signedNumeralTexts_iff.mpr ⟨_, numeral, isSign_of_takeSign, hnumeral, rfl⟩, ?_⟩
    have hfront := (List.prefix_append_right_inj (takeSign text).1.toList).mpr hbegins
    rwa [takeSign_append] at hfront

/-- The longest signed numeral of a text is its sign and the longest numeral behind it. -/
theorem isLongest_signedNumeralTexts_iff : IsLongest signedNumeralTexts text word ↔
    ∃ unsigned, IsLongest numeralTexts (takeSign text).2 unsigned ∧
      word = (takeSign text).1.toList ++ unsigned := by
  constructor
  · rintro ⟨hword, hbegins, hlongest⟩
    obtain ⟨unsigned, hunsigned, hfront, rfl⟩ := signed_prefix_iff.mp ⟨hword, hbegins⟩
    refine ⟨unsigned, ⟨hunsigned, hfront, fun other hother hbefore ↦ ?_⟩, rfl⟩
    obtain ⟨hsigned, hprefix⟩ := signed_prefix_iff.mpr ⟨other, hother, hbefore, rfl⟩
    have hlength := hlongest _ hsigned hprefix
    rw [List.length_append, List.length_append] at hlength
    exact Nat.le_of_add_le_add_left hlength
  · rintro ⟨unsigned, ⟨hunsigned, hfront, hlongest⟩, rfl⟩
    obtain ⟨hword, hbegins⟩ := signed_prefix_iff.mpr ⟨unsigned, hunsigned, hfront, rfl⟩
    refine ⟨hword, hbegins, fun other hother hbefore ↦ ?_⟩
    obtain ⟨shorter, hshorter, hfrontOther, rfl⟩ := signed_prefix_iff.mp ⟨hother, hbefore⟩
    rw [List.length_append, List.length_append]
    exact Nat.add_le_add_left (hlongest shorter hshorter hfrontOther) _

/-! ### Readings -/

theorem readAsDouble_append_iff (hsign : ∀ mark ∈ sign, isSign mark = true)
    (hnumeral : numeral.WellFormed) : ReadAsDouble (sign.toList ++ numeral.characters) value ↔
      value = if sign = some '-' then -numeral.value else numeral.value := by
  constructor
  · rintro ⟨mark, other, hmark, hother, hsame, rfl⟩
    have htaken := takeSign_append_numeral hsign hnumeral []
    rw [List.append_nil, hsame, ← List.append_nil other.characters,
      takeSign_append_numeral hmark hother, List.append_nil] at htaken
    obtain ⟨rfl, hcharacters⟩ := Prod.mk.inj htaken
    rw [hother.eq_of_characters_eq hnumeral hcharacters]
  · rintro rfl
    exact ⟨sign, numeral, hsign, hnumeral, rfl, rfl⟩

theorem readAsDouble_characters (hnumeral : numeral.WellFormed) :
    ReadAsDouble numeral.characters numeral.value :=
  ⟨none, numeral, by simp, hnumeral, rfl, rfl⟩

/-- Each text of a signed numeral is read as one double. -/
theorem existsUnique_readAsDouble (htext : text ∈ signedNumeralTexts) :
    ∃! value, ReadAsDouble text value := by
  obtain ⟨sign, numeral, hsign, hnumeral, rfl⟩ := mem_signedNumeralTexts_iff.mp htext
  exact ⟨_, (readAsDouble_append_iff hsign hnumeral).mpr rfl,
    fun _ ↦ (readAsDouble_append_iff hsign hnumeral).mp⟩

theorem leadingNumber_eq_some_iff : leadingNumber text = some value ↔
    ∃ word, IsLongest signedNumeralTexts (trimStart text) word ∧ ReadAsDouble word value ∧
      value.isFinite = true := by
  rw [leadingNumber, Option.bind_eq_some_iff]
  constructor
  · rintro ⟨⟨numeral, rest⟩, hscan, hfinite⟩
    obtain ⟨rfl, hvalue⟩ := finite?_eq_some_iff.mp hfinite
    refine ⟨_, isLongest_signedNumeralTexts_iff.mpr ⟨numeral.characters,
      isLongest_numeralTexts_iff.mpr ⟨numeral, rest, hscan, rfl⟩, rfl⟩, ?_, hvalue⟩
    exact (readAsDouble_append_iff isSign_of_takeSign (wellFormed_of_scan hscan)).mpr rfl
  · rintro ⟨word, hword, hread, hfinite⟩
    obtain ⟨unsigned, hunsigned, rfl⟩ := isLongest_signedNumeralTexts_iff.mp hword
    obtain ⟨numeral, rest, hscan, rfl⟩ := isLongest_numeralTexts_iff.mp hunsigned
    refine ⟨(numeral, rest), hscan, finite?_eq_some_iff.mpr ⟨?_, hfinite⟩⟩
    exact ((readAsDouble_append_iff isSign_of_takeSign (wellFormed_of_scan hscan)).mp hread).symm

/-- Where a numeral stands behind the white space of a text, there is no sign in front of it. -/
theorem leadingNumber_of_scan (hscan : Numeral.scan (trimStart text) = some (numeral, rest)) :
    leadingNumber text = finite? numeral.value := by
  have hmark : ∀ mark ∈ (none : Option Char), isSign mark = true := by simp
  have hsign : takeSign (trimStart text) = (none, trimStart text) := by
    rw [Numeral.eq_append_of_scan hscan]
    exact takeSign_append_numeral hmark (wellFormed_of_scan hscan) rest
  rw [leadingNumber, hsign]
  simp only [hscan]
  rfl

end Formulary.Number

namespace Formulary

open Formulary.Formula Formulary.Number Formulary.Text

variable {text : List Char}

/-! ### Both readers -/

/-- A number is lexed where a text starts with a digit, or with a point and a digit. -/
theorem scanLexeme_of_startsNumber (hstarts : startsNumber text = true) :
    ∃ numeral rest, Numeral.scan text = some (numeral, rest) ∧
      scanLexeme text = .ok (.number numeral.value, numeral.characters.length) := by
  obtain ⟨⟨numeral, rest⟩, hscan⟩ :=
    Option.isSome_iff_exists.mp ((startsNumber_iff text).mp hstarts)
  exact ⟨numeral, rest, hscan, by rw [scanLexeme, if_pos hstarts, hscan]⟩

/-- Only where a text starts with a digit, or with a point and a digit, a number is lexed. -/
theorem startsNumber_of_scanLexeme {value : Float} {width : Nat}
    (hscan : scanLexeme text = .ok (.number value, width)) : startsNumber text = true := by
  obtain ⟨word, rest, rfl, -, hreads⟩ := reads_of_scanLexeme hscan
  cases hreads with
  | number hnumeral =>
    exact (startsNumber_iff _).mpr (Option.isSome_iff_exists.mpr ⟨_, hnumeral⟩)

theorem startsNumber_drop_iff (text : List Char) (position : Nat) :
    startsNumber (text.drop position) = true ↔
      text[position]?.any isAsciiDigit = true ∨
        text[position]? = some '.' ∧ text[position + 1]?.any isAsciiDigit = true := by
  rw [← List.head?_drop, ← List.head?_drop, ← List.drop_drop]
  cases text.drop position with
  | nil => simp [startsNumber]
  | cons first rest => rw [startsNumber_cons]; simp

/-- Both readers of numbers take the longest numeral. Wherever a text has a digit, or a point and a
digit behind it, the lexer takes a number that ends where the longest numeral from there does. The
number at the front of a value text is the double that the longest signed numeral behind its white
space is read as, each such text being read as one double, and there is none where there is no such
numeral or where that double is not finite. So where the lexer takes a number behind the white space
of a text, the text has this number as its value, if it is finite. -/
theorem numbers_are_longest_numerals :
    (∀ (text : List Char) (position : Nat),
      (text[position]?.any isAsciiDigit = true ∨
        text[position]? = some '.' ∧ text[position + 1]?.any isAsciiDigit = true) →
      ∃ word value, IsLongest numeralTexts (text.drop position) word ∧ ReadAsDouble word value ∧
        scanLexeme (text.drop position) = .ok (.number value, word.length)) ∧
    (∀ text ∈ signedNumeralTexts, ∃! value, ReadAsDouble text value) ∧
    (∀ text value, leadingNumber text = some value ↔
      ∃ word, IsLongest signedNumeralTexts (trimStart text) word ∧ ReadAsDouble word value ∧
        value.isFinite = true) ∧
    ∀ (text : String) value width,
      scanLexeme (trimStart text.toList) = .ok (.number value, width) →
        Quantity.reading (.text text) = finite? value := by
  refine ⟨fun text position hstarts ↦ ?_, fun _ ↦ existsUnique_readAsDouble,
    fun _ _ ↦ leadingNumber_eq_some_iff, fun text value width hlexed ↦ ?_⟩
  · obtain ⟨numeral, rest, hscan, hlexeme⟩ :=
      scanLexeme_of_startsNumber ((startsNumber_drop_iff text position).mpr hstarts)
    exact ⟨_, _, isLongest_numeralTexts_iff.mpr ⟨numeral, rest, hscan, rfl⟩,
      readAsDouble_characters (wellFormed_of_scan hscan), hlexeme⟩
  · obtain ⟨numeral, rest, hscan, hlexeme⟩ :=
      scanLexeme_of_startsNumber (startsNumber_of_scanLexeme hlexed)
    rw [hlexed] at hlexeme
    obtain rfl := Lexeme.number.inj (Prod.mk.inj (Except.ok.inj hlexeme)).1
    exact leadingNumber_of_scan hscan

/-- A point needs a digit on one side, and the letter of an exponent needs one behind it. -/
example : ["2.", ".5", "5.e3", "4e+", "-.", "1..2"].map (fun text ↦ leadingNumber text.toList) =
    [some 2.0, some 0.5, some 5000.0, some 4.0, none, some 1.0] := by
  decide +kernel

end Formulary
