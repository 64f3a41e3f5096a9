import Formulary.Name.Identifier
import Formulary.Name.Substitution
import Formulary.Number.Shortest
import Formulary.Solution.Basic
import Formulary.Text.WordCharacter

/-!
# The ledger of known values

A ledger gives finite values to the words that formulas may use. What a parameter answers to is
fixed by the first value given to it; what only calculations answer to is replaced by every newer
result.
-/

set_option autoImplicit false
set_option relaxedAutoImplicit false

namespace Formulary

open Formulary.Name Formulary.Number Formulary.Text

/-- A word, its value, and whether a parameter answers to it. -/
structure LedgerEntry where
  key : String
  value : Float
  isParameter : Bool
  deriving Repr, DecidableEq

/-- Values by words, each word once. -/
structure Ledger where
  entries : List LedgerEntry
  deriving Repr, DecidableEq

namespace Ledger

/-- The ledger without values. -/
def empty : Ledger := ⟨[]⟩

/-! ### Queries -/

/-- The entry of a word. -/
def entry? (ledger : Ledger) (key : String) : Option LedgerEntry :=
  ledger.entries.find? fun entry ↦ entry.key == key

/-- The value of a word. -/
def get? (ledger : Ledger) (key : String) : Option Float :=
  (ledger.entry? key).map (·.value)

/-- Whether a parameter answers to a word. -/
def isParameterKey (ledger : Ledger) (key : String) : Bool :=
  (ledger.entry? key).any (·.isParameter)

/-- The words and their values, longest word first. -/
def longestFirst (ledger : Ledger) : List (String × Float) :=
  (arranged (fun first second ↦ longerFirst first.key.toList second.key.toList)
    ledger.entries).map fun entry ↦ (entry.key, entry.value)

/-! ### Parameters -/

/-- Fixes a word for a parameter. The first value of a word stays, even if a calculation gave it. -/
def fixWord (key : String) (value : Float) : List LedgerEntry → List LedgerEntry
  | [] => [⟨key, value, true⟩]
  | entry :: rest =>
    if entry.key = key then { entry with isParameter := true } :: rest
    else entry :: fixWord key value rest

/-- Gives a value to a word of a parameter; an empty word and a value that is not finite are passed
over. -/
def insert (ledger : Ledger) (key : String) (value : Float) : Ledger :=
  if key.isEmpty || !value.isFinite then ledger else ⟨fixWord key value ledger.entries⟩

/-- The words that a parameter answers to: its name and its identifier and, if the identity can
start a word, the identity as it is and with underscores for hyphens. -/
def parameterKeys (parameter : Parameter) : List String :=
  [parameter.name, identifier parameter.name] ++
    if parameter.id.toList.head?.any isNameStart then
      [parameter.id,
        String.ofList (parameter.id.toList.map fun character ↦
          if character = '-' then '_' else character)]
    else []

/-- The number of a parameter: the one entered by the user, else the stored one. -/
def parameterValue (overrides : Overrides) (parameter : Parameter) : Option Float :=
  (overrides.reading? parameter.id).or parameter.storedValue

/-- Registers a parameter under its words, if it has a number. -/
def insertParameter (overrides : Overrides) (ledger : Ledger) (parameter : Parameter) : Ledger :=
  match parameterValue overrides parameter with
  | some value =>
    (parameterKeys parameter).foldl (fun current key ↦ current.insert key value) ledger
  | none => ledger

/-! ### Calculations -/

/-- Gives a word a result, unless a parameter answers to it. -/
def put (key : String) (value : Float) : List LedgerEntry → List LedgerEntry
  | [] => [⟨key, value, false⟩]
  | entry :: rest =>
    if entry.key = key then
      (if entry.isParameter then entry else { entry with value }) :: rest
    else entry :: put key value rest

/-- Registers a result of a calculation under its aliases; one that is not finite is passed over. -/
def insertCalculation (ledger : Ledger) (name : String) (value : Float) : Ledger :=
  if value.isFinite then
    ⟨((aliases name).filter fun key ↦ !key.isEmpty).foldl
      (fun entries key ↦ put key value entries) ledger.entries⟩
  else ledger

/-- Takes the result of a calculation out of the ledger; the words of parameters stay. -/
def removeCalculation (ledger : Ledger) (name : String) : Ledger :=
  ⟨ledger.entries.filter fun entry ↦ entry.isParameter || !(aliases name).contains entry.key⟩

/-! ### Solutions -/

/-- The ledger of some parameters. -/
def ofParameters (parameters : List Parameter) (overrides : Overrides) : Ledger :=
  parameters.foldl (insertParameter overrides) empty

/-- The ledger of a solution: its parameters and then the results of its calculations. -/
def ofSolution (solution : Solution) (overrides : Overrides) : Ledger :=
  solution.calculations.foldl
    (fun ledger calculation ↦
      match calculation.priorResult with
      | some value => ledger.insertCalculation calculation.name value
      | none => ledger)
    (ofParameters solution.parameters overrides)

/-! ### Values in formula text -/

/-- A value as it is written into a formula; a negative one stands in parentheses. -/
def literal (value : Float) : String :=
  if value < 0.0 then "(" ++ shortestText value ++ ")" else shortestText value

/-- The substitution of every word by its value. -/
def substitution (ledger : Ledger) : Substitution :=
  .ofPairs (ledger.entries.map fun entry ↦ (entry.key, literal entry.value))

end Ledger

end Formulary
