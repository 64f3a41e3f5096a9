import Formulary.Number.Numeral
import Formulary.Number.Power
import Formulary.Toml.Value

/-!
# Numbers and dates in TOML

What TOML writes without quotes: integers in four bases with underscores between digits, floats, and
dates and times. `bareValue` recognizes a whole written word.
-/

set_option autoImplicit false
set_option relaxedAutoImplicit false

namespace Formulary.Toml

open Formulary.Number Formulary.Text

/-! ### Digits -/

/-- The value of a digit in some base up to sixteen. -/
def digitIn? (base : Nat) (character : Char) : Option Nat :=
  let digit :=
    if isAsciiDigit character then character.toNat - '0'.toNat
    else if 'a' ≤ character ∧ character ≤ 'f' then character.toNat - 'a'.toNat + 10
    else if 'A' ≤ character ∧ character ≤ 'F' then character.toNat - 'A'.toNat + 10
    else base
  if digit < base then some digit else none

/-- Digits of a base in which single underscores may stand between two digits, without the
underscores; `afterDigit` tells whether a digit stands before them. -/
def plainDigits (base : Nat) : Bool → List Char → Option (List Char)
  | afterDigit, [] => if afterDigit then some [] else none
  | afterDigit, character :: rest =>
    if character = '_' then if afterDigit then plainDigits base false rest else none
    else
      (digitIn? base character).bind fun _ ↦
        (plainDigits base true rest).map (character :: ·)

/-- The number that digits of a base stand for. -/
def valueIn (base : Nat) (figures : List Char) : Nat :=
  figures.foldl (fun value figure ↦ base * value + (digitIn? base figure).getD 0) 0

/-! ### Integers -/

/-- An integer, if it fits 64 bits. -/
def fitting (value : Int) : Option Value :=
  if -(twoTo 63 : Int) ≤ value ∧ value < twoTo 63 then some (.integer value) else none

/-- Decimal digits without a needless zero in front. -/
def decimalDigits (text : List Char) : Option (List Char) :=
  (plainDigits 10 false text).bind fun figures ↦
    if figures.head? = some '0' ∧ figures.length ≠ 1 then none else some figures

/-- An integer: signed in base ten, without a sign in the bases sixteen, eight and two. -/
def integer? (text : List Char) : Option Value :=
  match text with
  | '0' :: 'x' :: figures => (plainDigits 16 false figures).bind (fitting <| valueIn 16 ·)
  | '0' :: 'o' :: figures => (plainDigits 8 false figures).bind (fitting <| valueIn 8 ·)
  | '0' :: 'b' :: figures => (plainDigits 2 false figures).bind (fitting <| valueIn 2 ·)
  | _ =>
    let (sign, unsigned) := takeSign text
    (decimalDigits unsigned).bind fun figures ↦
      let natural : Int := naturalValue figures
      fitting (if sign = some '-' then -natural else natural)

/-! ### Floats -/

/-- A double with a sign before it. -/
def withSign (sign : Option Char) (value : Float) : Float :=
  if sign = some '-' then -value else value

/-- A decimal number with a fraction, an exponent or both, split at the letter of the exponent and
at the point; one above the largest double is refused. -/
def decimalFloat? (sign : Option Char) (text : List Char) : Option Value := do
  let mantissa := text.takeWhile fun character ↦ character != 'e' && character != 'E'
  let whole := mantissa.takeWhile (· != '.')
  let wholeFigures ← decimalDigits whole
  let fraction ← match mantissa.drop whole.length with
    | [] => some none
    | _ :: figures => (plainDigits 10 false figures).map some
  let exponent ← match text.drop mantissa.length with
    | [] => some none
    | letter :: rest =>
      let (exponentSign, figures) := takeSign rest
      (plainDigits 10 false figures).map fun figures ↦
        some (Exponent.mk letter exponentSign figures)
  if fraction.isNone && exponent.isNone then none
  else
    let value := withSign sign (Numeral.mk wholeFigures fraction exponent).value
    if value.isInf && 0.0 < value then none else some (.float value)

/-- A float: infinite, not a number, or a decimal number. -/
def float? (text : List Char) : Option Value :=
  let (sign, unsigned) := takeSign text
  if unsigned = ['i', 'n', 'f'] then some (.float (withSign sign (1.0 / 0.0)))
  else if unsigned = ['n', 'a', 'n'] then some (.float (withSign sign (0.0 / 0.0)))
  else decimalFloat? sign unsigned

/-! ### Dates and times -/

/-- A number of exactly so many digits, and what follows it. -/
def takeDigits (count : Nat) (text : List Char) : Option (Nat × List Char) :=
  let figures := text.take count
  if figures.length = count ∧ figures.all isAsciiDigit then
    some (naturalValue figures, text.drop count)
  else none

/-- Takes a character off the front of a text. -/
def takeCharacter (character : Char) : List Char → Option (List Char)
  | [] => none
  | first :: rest => if first = character then some rest else none

/-- The number of days of a month. -/
def daysOf (year month : Nat) : Nat :=
  if month = 2 then
    if year % 4 = 0 ∧ (year % 100 ≠ 0 ∨ year % 400 = 0) then 29 else 28
  else if month = 4 ∨ month = 6 ∨ month = 9 ∨ month = 11 then 30 else 31

/-- Takes a date off the front of a text. -/
def takeDate (text : List Char) : Option (List Char) := do
  let (year, afterYear) ← takeDigits 4 text
  let (month, afterMonth) ← takeDigits 2 (← takeCharacter '-' afterYear)
  let (day, rest) ← takeDigits 2 (← takeCharacter '-' afterMonth)
  if 1 ≤ month ∧ month ≤ 12 ∧ 1 ≤ day ∧ day ≤ daysOf year month then some rest else none

/-- Takes a time off the front of a text. -/
def takeTime (text : List Char) : Option (List Char) := do
  let (hour, afterHour) ← takeDigits 2 text
  let (minute, afterMinute) ← takeDigits 2 (← takeCharacter ':' afterHour)
  let (second, rest) ← takeDigits 2 (← takeCharacter ':' afterMinute)
  if 23 < hour ∨ 59 < minute ∨ 60 < second then none
  else
    match rest with
    | '.' :: fraction =>
      if fraction.head?.any isAsciiDigit then some (fraction.dropWhile isAsciiDigit) else none
    | _ => some rest

/-- Whether a text is an offset from universal time, or empty. -/
def isOffset : List Char → Bool
  | [] => true
  | sign :: rest =>
    if rest.isEmpty then sign == 'Z' || sign == 'z'
    else
      (sign == '+' || sign == '-') && (do
        let (hour, afterHour) ← takeDigits 2 rest
        let (minute, beyond) ← takeDigits 2 (← takeCharacter ':' afterHour)
        return hour ≤ 23 && minute ≤ 59 && beyond.isEmpty : Option Bool) == some true

/-- Whether a text is a time with an optional offset. -/
def isOffsetTime (text : List Char) : Bool :=
  (takeTime text).any isOffset

/-- Whether a text is a date alone. -/
def isDate (text : List Char) : Bool :=
  takeDate text == some []

/-- Whether a text is a date with a time, a date alone or a time alone. -/
def isDateTime (text : List Char) : Bool :=
  match takeDate text with
  | some [] => true
  | some (mark :: time) => (mark == 'T' || mark == 't' || mark == ' ') && isOffsetTime time
  | none => takeTime text == some []

/-! ### Words -/

/-- The value of a word without quotes. -/
def bareValue (word : List Char) : Option Value :=
  if word = "true".toList then some (.boolean true)
  else if word = "false".toList then some (.boolean false)
  else if isDateTime word then some (.dateTime (String.ofList word))
  else (float? word).or (integer? word)

end Formulary.Toml
