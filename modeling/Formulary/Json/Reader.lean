import Formulary.Json.Value
import Formulary.Number.Power

/-!
# Reading JSON text

`parse` accepts one JSON value with white space around it and nothing else. Objects keep the last of
several fields with one name, values nest at most `deepest` levels, and a text may hold neither raw
control characters nor a lone half of a surrogate pair.

A number without fraction and exponent that fits 64 bits is an integer. Any other number is read in
two steps: its digits are gathered, as long as they fit 64 bits, into a significand, and the double
nearest to that is multiplied or divided by one power of ten. A number beyond the largest double is
refused and one below the smallest is zero.
-/

set_option autoImplicit false
set_option relaxedAutoImplicit false

namespace Formulary.Json

open Formulary.Text Formulary.Number

/-- The number of levels that values may nest. -/
def deepest : Nat := 127

/-! ### White space -/

/-- Whether a character may stand between the parts of a JSON text. -/
def isSpace (character : Char) : Bool :=
  character == ' ' || character == '\t' || character == '\n' || character == '\r'

/-- A text without its leading white space. -/
def skipSpace (text : List Char) : List Char :=
  text.dropWhile isSpace

/-! ### Numbers -/

/-- Digits gathered into 64 bits: the significand, the power of ten that it still lacks, and
whether a digit did not fit. -/
structure Significand where
  value : Nat
  shift : Int
  full : Bool

/-- Whether a number fits 64 bits. -/
def fitsWord (value : Nat) : Bool :=
  value < twoTo 64

/-- Takes one more digit from before the point; once a digit did not fit, each one only moves the
point. -/
def Significand.addWhole (significand : Significand) (figure : Char) : Significand :=
  let next := 10 * significand.value + naturalValue [figure]
  if significand.full || !fitsWord next then
    { significand with shift := significand.shift + 1, full := true }
  else { significand with value := next }

/-- Takes one more digit from behind the point; once a digit did not fit, no more are taken. -/
def Significand.addFraction (significand : Significand) (figure : Char) : Significand :=
  let next := 10 * significand.value + naturalValue [figure]
  if significand.full || !fitsWord next then { significand with full := true }
  else { significand with value := next, shift := significand.shift - 1 }

/-- The significand of a numeral. -/
def Significand.ofNumeral (numeral : Numeral) : Significand :=
  let whole := numeral.whole.foldl addWhole ⟨0, 0, false⟩
  (numeral.fraction.getD []).foldl addFraction { whole with full := false }

/-- A double divided by a power of ten, in steps that a double can hold; after so many of them
nothing is left of any significand. -/
def scaleDown : Nat → Float → Nat → Float
  | 0, _, _ => 0.0
  | steps + 1, value, places =>
    if places ≤ 308 then value / (Decimal.mk 1 places).toDouble
    else scaleDown steps (value / (Decimal.mk 1 308).toDouble) (places - 308)

/-- A significand times a power of ten; none beyond the largest double. -/
def scaled (significand : Nat) (exponent : Int) : Option Float :=
  let value := Float.ofNat significand
  if exponent < 0 then some (scaleDown 4 value exponent.natAbs)
  else if significand = 0 then some value
  else if 308 < exponent then none
  else
    let product := value * (Decimal.mk 1 exponent).toDouble
    if product.isFinite then some product else none

/-- The number that a numeral with a sign stands for. -/
def numberOf (negative : Bool) (numeral : Numeral) : Option Number :=
  let natural := naturalValue numeral.whole
  if numeral.fraction.isNone && numeral.exponent.isNone && !negative && fitsWord natural then
    some (.integer natural)
  else if numeral.fraction.isNone && numeral.exponent.isNone && negative && 0 < natural &&
      natural ≤ twoTo 63 then
    some (.integer (-natural))
  else
    let significand := Significand.ofNumeral numeral
    let exponent := significand.shift + numeral.exponent.elim 0 Exponent.value
    (scaled significand.value exponent).map fun value ↦ .double (if negative then -value else value)

/-- Whether a numeral is one of JSON: digits before the point, no needless zero in front, and digits
behind a point. -/
def wellFormed (numeral : Numeral) : Bool :=
  !numeral.whole.isEmpty && (numeral.whole.head? != some '0' || numeral.whole.length == 1) &&
    numeral.fraction != some []

/-- Whether an exponent was begun and not finished. -/
def danglingExponent (rest : List Char) : Bool :=
  rest.head? == some 'e' || rest.head? == some 'E'

/-- Reads a number. -/
def readNumber (text : List Char) : Option (Number × List Char) :=
  let (negative, unsigned) := match text with
    | '-' :: rest => (true, rest)
    | _ => (false, text)
  match Numeral.scan unsigned with
  | none => none
  | some (numeral, rest) =>
    if wellFormed numeral && !danglingExponent rest then
      (numberOf negative numeral).map fun number ↦ (number, rest)
    else none

/-! ### Texts -/

/-- One element of a written text: a character or an escaped unit of sixteen bits. -/
inductive TextUnit where
  | character (value : Char)
  | code (value : Nat)

/-- The value of a digit in base sixteen. -/
def hexadecimalDigit? (character : Char) : Option Nat :=
  if isAsciiDigit character then some (character.toNat - '0'.toNat)
  else if 'a' ≤ character ∧ character ≤ 'f' then some (character.toNat - 'a'.toNat + 10)
  else if 'A' ≤ character ∧ character ≤ 'F' then some (character.toNat - 'A'.toNat + 10)
  else none

/-- The number that digits in base sixteen stand for. -/
def hexadecimalValue? (figures : List Char) : Option Nat :=
  figures.foldl
    (fun value? figure ↦ do return 16 * (← value?) + (← hexadecimalDigit? figure)) (some 0)

/-- The character of a short escape. -/
def shortEscape? : Char → Option Char
  | '"' => some '"'
  | '\\' => some '\\'
  | '/' => some '/'
  | 'b' => some '\x08'
  | 'f' => some '\x0c'
  | 'n' => some '\n'
  | 'r' => some '\r'
  | 't' => some '\t'
  | _ => none

/-- Reads the units of a text up to the closing quote. -/
def readUnits : List Char → Option (List TextUnit × List Char)
  | [] => none
  | '"' :: rest => some ([], rest)
  | '\\' :: 'u' :: first :: second :: third :: fourth :: rest => do
    let code ← hexadecimalValue? [first, second, third, fourth]
    let (units, after) ← readUnits rest
    return (.code code :: units, after)
  | '\\' :: kind :: rest => do
    let character ← shortEscape? kind
    let (units, after) ← readUnits rest
    return (.character character :: units, after)
  | character :: rest =>
    if character < ' ' ∨ character = '\\' then none
    else (readUnits rest).map fun (units, after) ↦ (.character character :: units, after)

/-- Joins units into characters; surrogates count in pairs only. -/
def joinUnits : List TextUnit → Option (List Char)
  | [] => some []
  | .character character :: rest => (joinUnits rest).map (character :: ·)
  | [.code code] =>
    if 0xD800 ≤ code ∧ code < 0xE000 then none else some [Char.ofNat code]
  | .code code :: .code next :: rest =>
    if 0xD800 ≤ code ∧ code < 0xDC00 then
      if 0xDC00 ≤ next ∧ next < 0xE000 then
        (joinUnits rest).map
          (Char.ofNat (0x10000 + (code - 0xD800) * 0x400 + (next - 0xDC00)) :: ·)
      else none
    else if 0xDC00 ≤ code ∧ code < 0xE000 then none
    else (joinUnits (.code next :: rest)).map (Char.ofNat code :: ·)
  | .code code :: .character character :: rest =>
    if 0xD800 ≤ code ∧ code < 0xE000 then none
    else (joinUnits (.character character :: rest)).map (Char.ofNat code :: ·)

/-- Reads a text behind its opening quote. -/
def readText (text : List Char) : Option (String × List Char) := do
  let (units, rest) ← readUnits text
  let characters ← joinUnits units
  return (String.ofList characters, rest)

/-! ### Values -/

/-- Reads the items of a list behind its first bracket or comma; an item takes at least one
character, so `rounds` is at most the length of the text. -/
def readItems (readItem : List Char → Option (Value × List Char)) :
    Nat → List Char → Option (List Value × List Char)
  | 0, _ => none
  | rounds + 1, text => do
    let (item, rest) ← readItem (skipSpace text)
    match skipSpace rest with
    | ',' :: after =>
      let (items, beyond) ← readItems readItem rounds after
      return (item :: items, beyond)
    | ']' :: after => return ([item], after)
    | _ => none

/-- Reads the fields of an object behind its first brace or comma. -/
def readFields (readItem : List Char → Option (Value × List Char)) :
    Nat → List Char → Option (List (String × Value) × List Char)
  | 0, _ => none
  | rounds + 1, text => do
    match skipSpace text with
    | '"' :: quoted =>
      let (name, afterName) ← readText quoted
      match skipSpace afterName with
      | ':' :: afterColon =>
        let (item, rest) ← readItem (skipSpace afterColon)
        match skipSpace rest with
        | ',' :: after =>
          let (fields, beyond) ← readFields readItem rounds after
          return ((name, item) :: fields, beyond)
        | '\x7d' :: after => return ([(name, item)], after)
        | _ => none
      | _ => none
    | _ => none

/-- Takes an exact word off the front of a text. -/
def readWord (word : String) (value : Value) (text : List Char) : Option (Value × List Char) :=
  if word.toList.isPrefixOf text then some (value, text.drop word.length) else none

/-- Reads a value that may nest so many levels further. -/
def readValue : Nat → List Char → Option (Value × List Char)
  | _, [] => none
  | _, '"' :: rest => (readText rest).map fun (value, after) ↦ (.text value, after)
  | 0, '[' :: _ => none
  | 0, '\x7b' :: _ => none
  | levels + 1, '[' :: rest =>
    match skipSpace rest with
    | ']' :: after => some (.list [], after)
    | _ => (readItems (readValue levels) rest.length rest).map
        fun (items, after) ↦ (.list items, after)
  | levels + 1, '\x7b' :: rest =>
    match skipSpace rest with
    | '\x7d' :: after => some (.object [], after)
    | _ => (readFields (readValue levels) rest.length rest).map
        fun (fields, after) ↦ (.object (Table.ofEntries fields), after)
  | _, 'n' :: rest => readWord "null" .null ('n' :: rest)
  | _, 't' :: rest => readWord "true" (.boolean true) ('t' :: rest)
  | _, 'f' :: rest => readWord "false" (.boolean false) ('f' :: rest)
  | _, text => (readNumber text).map fun (value, after) ↦ (.number value, after)

/-- Reads a JSON text. -/
def parse (text : String) : Option Value :=
  match readValue deepest (skipSpace text.toList) with
  | some (value, rest) => if (skipSpace rest).isEmpty then some value else none
  | none => none

end Formulary.Json
