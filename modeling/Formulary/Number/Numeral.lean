import Formulary.Number.Decimal
import Formulary.Number.Finite
import Formulary.Text.WhiteSpace
import Formulary.Text.WordCharacter

/-!
# Numerals

A numeral is what formulas and value texts agree to call a number: digits with an optional fraction
and an optional exponent, where one digit stands before or after the point and at least one in the
exponent. `Numeral.scan` takes the longest numeral off the front of a text, `Numeral.characters` is
the text of a numeral, and `Numeral.value` the double nearest to it. `leadingNumber` reads the
number at the front of a value text, after white space and with an optional sign.

The main statement, `Numeral.eq_append_of_scan`, says that scanning loses nothing.
-/

set_option autoImplicit false
set_option relaxedAutoImplicit false

namespace Formulary.Number

open Formulary.Text

/-! ### Numerals and their text -/

/-- An exponent: its letter, its sign if it is written, and its digits. -/
structure Exponent where
  letter : Char
  sign : Option Char
  figures : List Char
  deriving Repr, DecidableEq

/-- A numeral: the digits before the point, those after it if there is a point, and an exponent. -/
structure Numeral where
  whole : List Char
  fraction : Option (List Char)
  exponent : Option Exponent
  deriving Repr, DecidableEq

/-- The text of an exponent. -/
def Exponent.characters (exponent : Exponent) : List Char :=
  exponent.letter :: exponent.sign.toList ++ exponent.figures

/-- The text of a fraction that may be missing. -/
def fractionCharacters : Option (List Char) → List Char
  | none => []
  | some figures => '.' :: figures

/-- The text of an exponent that may be missing. -/
def exponentCharacters : Option Exponent → List Char
  | none => []
  | some exponent => exponent.characters

/-- The text of a numeral. -/
def Numeral.characters (numeral : Numeral) : List Char :=
  numeral.whole ++ fractionCharacters numeral.fraction ++ exponentCharacters numeral.exponent

/-! ### Scanning -/

/-- Takes an optional sign off the front of a text. -/
def takeSign : List Char → Option Char × List Char
  | [] => (none, [])
  | character :: rest =>
    if character = '+' ∨ character = '-' then (some character, rest)
    else (none, character :: rest)

/-- Takes an exponent off the front of a text; one without digits is none. -/
def scanExponent : List Char → Option (Exponent × List Char)
  | [] => none
  | letter :: rest =>
    if letter = 'e' ∨ letter = 'E' then
      let (sign, after) := takeSign rest
      let figures := after.takeWhile isAsciiDigit
      if figures.isEmpty then none
      else some (⟨letter, sign, figures⟩, after.dropWhile isAsciiDigit)
    else none

/-- Takes an optional exponent off the front of a text. -/
def takeExponent (text : List Char) : Option Exponent × List Char :=
  match scanExponent text with
  | some (exponent, rest) => (some exponent, rest)
  | none => (none, text)

/-- Takes an optional point and the digits behind it off the front of a text. -/
def takeFraction : List Char → Option (List Char) × List Char
  | [] => (none, [])
  | character :: rest =>
    if character = '.' then (some (rest.takeWhile isAsciiDigit), rest.dropWhile isAsciiDigit)
    else (none, character :: rest)

/-- Takes the longest numeral off the front of a text. -/
def Numeral.scan (text : List Char) : Option (Numeral × List Char) :=
  let whole := text.takeWhile isAsciiDigit
  let (fraction, afterFraction) := takeFraction (text.dropWhile isAsciiDigit)
  if whole.isEmpty && (fraction.getD []).isEmpty then none
  else
    let (exponent, rest) := takeExponent afterFraction
    some (⟨whole, fraction, exponent⟩, rest)

theorem takeSign_append (text : List Char) :
    (takeSign text).1.toList ++ (takeSign text).2 = text := by
  cases text with
  | nil => rfl
  | cons character rest =>
    rw [takeSign]
    split <;> simp

theorem takeExponent_append (text : List Char) :
    exponentCharacters (takeExponent text).1 ++ (takeExponent text).2 = text := by
  cases text with
  | nil => rfl
  | cons letter rest =>
    simp only [takeExponent, scanExponent]
    have hsign := takeSign_append rest
    generalize takeSign rest = parts at hsign
    obtain ⟨sign?, after⟩ := parts
    by_cases hletter : letter = 'e' ∨ letter = 'E'
    · by_cases hnone : (after.takeWhile isAsciiDigit).isEmpty = true
      · simp [hletter, hnone, exponentCharacters]
      · have hfigures : after.takeWhile isAsciiDigit ++ after.dropWhile isAsciiDigit = after :=
          List.takeWhile_append_dropWhile
        simp only [hletter, hnone, if_true, if_false, Bool.false_eq_true, exponentCharacters,
          Exponent.characters, List.cons_append, List.append_assoc, hfigures]
        simpa using hsign
    · simp [hletter, exponentCharacters]

theorem takeFraction_append (text : List Char) :
    fractionCharacters (takeFraction text).1 ++ (takeFraction text).2 = text := by
  cases text with
  | nil => rfl
  | cons character rest =>
    rw [takeFraction]
    split
    · rename_i hpoint
      simp [fractionCharacters, hpoint]
    · simp [fractionCharacters]

/-- Scanning loses nothing: the text is the numeral followed by the rest. -/
theorem Numeral.eq_append_of_scan {text rest : List Char} {numeral : Numeral}
    (hscan : Numeral.scan text = some (numeral, rest)) :
    text = numeral.characters ++ rest := by
  simp only [Numeral.scan] at hscan
  split at hscan
  · simp at hscan
  · simp only [Option.some.injEq, Prod.mk.injEq] at hscan
    obtain ⟨rfl, rfl⟩ := hscan
    simp only [Numeral.characters, List.append_assoc, takeExponent_append, takeFraction_append,
      List.takeWhile_append_dropWhile]

/-! ### Values -/

/-- The number that digits stand for in base ten. -/
def naturalValue (figures : List Char) : Nat :=
  figures.foldl (fun value figure ↦ 10 * value + (figure.toNat - '0'.toNat)) 0

/-- The integer that an exponent stands for. -/
def Exponent.value (exponent : Exponent) : Int :=
  if exponent.sign = some '-' then -(naturalValue exponent.figures : Int)
  else naturalValue exponent.figures

/-- The decimal number that a numeral stands for. -/
def Numeral.decimal (numeral : Numeral) : Decimal :=
  let fraction := numeral.fraction.getD []
  ⟨naturalValue (numeral.whole ++ fraction),
    (numeral.exponent.elim 0 Exponent.value) - fraction.length⟩

/-- The double nearest to a decimal number, infinite beyond the largest double. The two shortcuts
catch numbers so large or so small that their exponent alone decides. -/
def Decimal.toDouble (decimal : Decimal) : Float :=
  if decimal.coefficient = 0 then 0.0
  else if 400 < decimal.exponent then 1.0 / 0.0
  else if decimal.coefficient.log2 + 1100 < 3 * (-decimal.exponent).toNat then 0.0
  else Float.ofScientific decimal.coefficient (decimal.exponent < 0) decimal.exponent.natAbs

/-- The double nearest to a numeral. -/
def Numeral.value (numeral : Numeral) : Float :=
  numeral.decimal.toDouble

/-- The number at the front of a text, after white space and with an optional sign; none where
there is no numeral or where it is beyond the largest double. -/
def leadingNumber (text : List Char) : Option Float :=
  let (sign, unsigned) := takeSign (trimStart text)
  (Numeral.scan unsigned).bind fun (numeral, _) ↦
    finite? (if sign = some '-' then -numeral.value else numeral.value)

theorem isFinite_of_leadingNumber {text : List Char} {value : Float}
    (hnumber : leadingNumber text = some value) : value.isFinite = true := by
  obtain ⟨_, _, hfinite⟩ := Option.bind_eq_some_iff.mp hnumber
  exact (finite?_eq_some_iff.mp hfinite).2

end Formulary.Number
