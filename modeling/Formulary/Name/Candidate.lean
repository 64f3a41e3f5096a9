import Formulary.Text.WhiteSpace
import Formulary.Text.WordCharacter

/-!
# Candidate names in formula text

Display names stand in formulas as they are, white space included. A candidate is a run of words of
ASCII letters, digits and underscores with white space between them, whose first word does not start
with a digit. `runs` finds them all from left to right, each as long as can be; `candidates` leaves
out the words of the formula language. The harvest is generous: it holds duplicates and chance finds
such as the `e5` of `2e5`.
-/

set_option autoImplicit false
set_option relaxedAutoImplicit false

namespace Formulary.Name

open Formulary.Text

/-- The functions, constants and guard words that never name a record. -/
def reservedWords : List String :=
  ["sin", "cos", "tan", "log", "exp", "sqrt", "abs", "round", "floor", "ceil", "max", "min", "pi",
   "e", "Math", "self", "this", "conditional"]

/-- The state of the search between two characters: the run so far and the white space read behind
it, both backwards. An empty run means that none is open. -/
structure RunState where
  run : List Char
  gap : List Char

/-- The state outside any run. -/
def RunState.outside : RunState := ⟨[], []⟩

/-- The runs of a text, given the state at its start. -/
def runsFrom : RunState → List Char → List (List Char)
  | state, [] => if state.run.isEmpty then [] else [state.run.reverse]
  | state, character :: rest =>
    if state.run.isEmpty then
      if isPlainStart character then runsFrom ⟨[character], []⟩ rest
      else runsFrom .outside rest
    else if isPlainCharacter character then
      runsFrom ⟨character :: (state.gap ++ state.run), []⟩ rest
    else if isWhiteSpace character then
      runsFrom ⟨state.run, character :: state.gap⟩ rest
    else state.run.reverse :: runsFrom .outside rest

/-- The runs of a text, from left to right. -/
def runs (text : List Char) : List (List Char) :=
  runsFrom .outside text

/-- The candidate names of a formula in order of appearance, without the reserved words and without
further ones. -/
def candidates (formula : String) (reserved : List String) : List String :=
  ((runs formula.toList).map String.ofList).filter fun name ↦
    !reservedWords.contains name && !reserved.contains name

end Formulary.Name
