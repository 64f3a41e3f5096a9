import Formulary.Formula.Error
import Formulary.Request.Error

/-!
# Log

What the library reports beside its results. A `Notice` is what happened; `Notice.line` is the line
of the log, the level before the text.
-/

set_option autoImplicit false
set_option relaxedAutoImplicit false

namespace Formulary

/-- How urgent a notice is. -/
inductive LogLevel where
  | debug
  | info
  | warn
  deriving Repr, DecidableEq

/-- The name of a level. -/
def LogLevel.label : LogLevel → String
  | .debug => "debug"
  | .info => "info"
  | .warn => "warn"

/-- What is reported. -/
inductive Notice where
  | calculationFailed (name : String) (error : Formula.EvaluationError)
  | cycleSkipped (count : Nat)
  | namesMerged (collision : Name.Collision)
  | companyValueMissing (name : String)
  | filterLeftOut (name : String)
  | requestBuilt (inputs nodes : Nat) (target : List String)
  | requestNotBuilt (error : RequestError)
  | resultsMissing (returned : Nat) (target missing : List String)
  deriving Repr, DecidableEq

/-- The level of a notice. -/
def Notice.level : Notice → LogLevel
  | .calculationFailed _ _ => .debug
  | .cycleSkipped _ => .debug
  | .namesMerged _ => .warn
  | .companyValueMissing _ => .warn
  | .filterLeftOut _ => .info
  | .requestBuilt _ _ _ => .debug
  | .requestNotBuilt _ => .warn
  | .resultsMissing _ _ _ => .warn

/-- The text of a notice. -/
def Notice.text : Notice → String
  | .calculationFailed name error => s!"Calculation '{name}' failed: {error.message}"
  | .cycleSkipped count => s!"{count} calculation(s) are part of a reference cycle"
  | .namesMerged collision =>
    collision.message ++ "; keeping '" ++ collision.names.headD "" ++ "'"
  | .companyValueMissing name => s!"Company parameter '{name}' has no valid value"
  | .filterLeftOut name =>
    s!"Filter parameter '{name}' excluded from the node list; it stays available to formulas"
  | .requestBuilt inputs nodes target =>
    s!"Built solver request: {inputs} input(s), {nodes} node(s), target " ++
      Text.quotedList target
  | .requestNotBuilt error => s!"Solver request not built: {error.message}"
  | .resultsMissing returned target missing =>
    s!"Solver returned {returned} value(s) for {target.length} target(s); missing: " ++
      Text.quotedList missing

/-- The line of a notice. -/
def Notice.line (notice : Notice) : String :=
  notice.level.label ++ ": " ++ notice.text

end Formulary
