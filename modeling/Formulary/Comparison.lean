import Formulary.Number.FixedPlaces
import Formulary.Response

/-!
# Comparing results

Two tables of results are set side by side, one row per name. The name becomes a title, the values
are read as numbers, and the difference is given also in percent of the first value.
-/

set_option autoImplicit false
set_option relaxedAutoImplicit false

namespace Formulary

open Formulary.Number Formulary.Text

/-! ### Titles -/

/-- A capital ASCII letter for a small one. -/
def upperAscii (character : Char) : Char :=
  if 'a' ≤ character ∧ character ≤ 'z' then Char.ofNat (character.toNat - 32) else character

/-- A small ASCII letter for a capital one. -/
def lowerAscii (character : Char) : Char :=
  if 'A' ≤ character ∧ character ≤ 'Z' then Char.ofNat (character.toNat + 32) else character

/-- Whether a character is an ASCII letter or digit. -/
def isAsciiAlphanumeric (character : Char) : Bool :=
  isAsciiLetter character || isAsciiDigit character

/-- A text with spaces for underscores in which every word of ASCII letters and digits starts with a
capital; `starting` tells whether the first character would start a word. -/
def titleFrom : Bool → List Char → List Char
  | _, [] => []
  | starting, character :: rest =>
    if character = '_' then ' ' :: titleFrom true rest
    else if isAsciiAlphanumeric character then
      (if starting then upperAscii character else lowerAscii character) :: titleFrom false rest
    else character :: titleFrom true rest

/-- The title of a name: spaces for underscores, and a capital at the start of every word. -/
def metricTitle (name : String) : String :=
  String.ofList (titleFrom true name.toList)

/-! ### Rows -/

/-- A row of a comparison. -/
structure ComparisonRow where
  metric : String
  first : Float
  second : Float
  difference : Float
  percentChange : String
  deriving Repr, DecidableEq

/-- The number of a result: a number itself, the number at the front of a text, and zero for all
else and for what is not finite. -/
def resultNumber : Json.Value → Float
  | .number value => (finite? value.toDouble).getD 0.0
  | .text value => (leadingNumber value.toList).getD 0.0
  | _ => 0.0

/-- The number of a result that may be missing. -/
def resultNumberOr (result : Option Json.Value) : Float :=
  result.elim 0.0 resultNumber

/-- A difference in percent of a base, with one decimal place; nothing is no percent of zero. Adding
zero turns a negative zero into a positive one. -/
def changeInPercent (base difference : Float) : String :=
  if base == 0.0 then "0.0%" else fixedText 1 (difference / base * 100.0 + 0.0) ++ "%"

/-- The row of a name with its two numbers. -/
def ComparisonRow.of (name : String) (first second : Float) : ComparisonRow where
  metric := metricTitle name
  first := first
  second := second
  difference := second - first
  percentChange := changeInPercent first (second - first)

/-- The names of two tables of results: those of the first one, then those of the second one
alone. -/
def comparedNames (first second : Results) : List String :=
  first.map Prod.fst ++
    (second.map Prod.fst).filter fun name ↦ (Table.find? name first).isNone

/-- The rows of two tables of results. -/
def compareResults (first second : Results) : List ComparisonRow :=
  (comparedNames first second).map fun name ↦
    .of name (resultNumberOr (Table.find? name first)) (resultNumberOr (Table.find? name second))

/-- The rows of a single table of results, which is on both sides. -/
def singleResults (results : Results) : List ComparisonRow :=
  results.map fun (name, result) ↦
    { metric := metricTitle name
      first := resultNumber result
      second := resultNumber result
      difference := 0.0
      percentChange := "0.0%" }

end Formulary
