import Formulary.Formula.Parser
import Formulary.Ledger
import Formulary.Name.WholeWord
import Formulary.Settings.Basic

/-!
# Previewing a formula

A formula is evaluated locally by writing the known values into its text, parsing what results and
evaluating it; words that are not in the ledger as they stand fail. `evaluateIn` does this for a
ledger, `preview` for a solution, and `checkFormula` says whether an author may keep the formula.
-/

set_option autoImplicit false
set_option relaxedAutoImplicit false

namespace Formulary

open Formulary.Formula Formulary.Name Formulary.Number

/-! ### Evaluation -/

/-- Whether a formula mentions itself by one of the words for that. -/
def mentionsItself (formula : String) : Bool :=
  containsWord formula "self" || containsWord formula "this"

/-- The value of a formula, with the values of a ledger in it, before it is judged. -/
def substitutedValue (ledger : Ledger) (formula : String) : Except EvaluationError Float :=
  match parse (ledger.substitution.replace formula.toList) with
  | .error error => .error (.syntaxError error)
  | .ok expression => expression.evaluate ledger.get?

/-- The value of a formula with the values of a ledger, rounded as the settings say. A formula that
mentions itself is refused, and so is a value that is not finite. -/
def evaluateIn (settings : Settings) (ledger : Ledger) (formula : String) :
    Except EvaluationError Float :=
  if mentionsItself formula then .error .selfReference
  else
    match substitutedValue ledger formula with
    | .error error => .error error
    | .ok value =>
      if value.isFinite then .ok (roundTo settings.resultPlaces value) else .error .notFinite

/-- The value of a formula in a solution. -/
def preview (settings : Settings) (solution : Solution) (overrides : Overrides)
    (formula : String) : Except EvaluationError Float :=
  evaluateIn settings (.ofSolution solution overrides) formula

/-- The outcome of what was evaluated. -/
def Outcome.ofEvaluation : Except EvaluationError Float → Outcome
  | .ok number => .value number
  | .error _ => .failure

/-! ### Checks -/

/-- Why an author may not keep a formula. -/
inductive FormulaFault where
  | blank
  | selfReference
  | invalid (error : EvaluationError)
  deriving Repr, DecidableEq

/-- The wording of a fault. -/
def FormulaFault.message : FormulaFault → String
  | .blank => "Formula is empty"
  | .selfReference => "Formula cannot reference itself (self/this)"
  | .invalid error => s!"Invalid formula: {error.message}"

/-- Checks a formula in a solution, whatever the user has entered. -/
def checkFormula (settings : Settings) (solution : Solution) (formula : String) :
    Except FormulaFault Unit :=
  if Text.isBlank formula.toList then .error .blank
  else
    match preview settings solution [] formula with
    | .ok _ => .ok ()
    | .error .selfReference => .error .selfReference
    | .error error => .error (.invalid error)

end Formulary
