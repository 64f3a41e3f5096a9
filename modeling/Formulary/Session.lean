import Formulary.Comparison
import Formulary.Recalculation
import Formulary.Request.Build
import Formulary.Review

/-!
# Authoring sessions

A session is a solution under work together with what the user has entered and the settings. Records
are put in by identity: the first one with the identity gives way, or the record joins at the end.
-/

set_option autoImplicit false
set_option relaxedAutoImplicit false

namespace Formulary

/-- A solution under work. -/
structure Session where
  settings : Settings
  solution : Solution
  overrides : Overrides

/-- Puts a record in the place of the first one of a kind, or at the end. -/
def putRecord {Entry : Type} (same : Entry → Bool) (record : Entry) : List Entry → List Entry
  | [] => [record]
  | other :: rest => if same other then record :: rest else other :: putRecord same record rest

namespace Session

/-! ### What the user enters -/

/-- Enters a quantity for a parameter. -/
def enter (session : Session) (id : String) (quantity : Quantity) : Session :=
  { session with overrides := session.overrides.enter id quantity }

/-- Takes back what was entered for a parameter. -/
def clear (session : Session) (id : String) : Session :=
  { session with overrides := session.overrides.clear id }

/-! ### What the author changes -/

/-- Puts a parameter into the solution. -/
def putParameter (session : Session) (parameter : Parameter) : Session :=
  { session with
    solution.parameters :=
      putRecord (fun other ↦ other.id == parameter.id) parameter session.solution.parameters }

/-- Puts a calculation into the solution. -/
def putCalculation (session : Session) (calculation : Calculation) : Session :=
  { session with
    solution.calculations :=
      putRecord (fun other ↦ other.id == calculation.id) calculation
        session.solution.calculations }

/-- Takes all parameters of an identity out of the solution. -/
def dropParameter (session : Session) (id : String) : Session :=
  { session with solution.parameters := session.solution.parameters.filter (·.id != id) }

/-- Takes all calculations of an identity out of the solution. -/
def dropCalculation (session : Session) (id : String) : Session :=
  { session with solution.calculations := session.solution.calculations.filter (·.id != id) }

/-- Brings all calculations to the present form. -/
def migrate (session : Session) : Session :=
  { session with
    solution.calculations := session.solution.calculations.map Calculation.migrated }

/-- Recalculates the solution. -/
def recalculate (session : Session) : Session :=
  { session with
    solution.calculations :=
      (Formulary.recalculate session.settings session.solution session.overrides).calculations }

/-! ### Questions -/

/-- The findings about a parameter that is to join the solution. -/
def reviewOf (session : Session) (parameter : Parameter) : List Finding :=
  reviewParameter session.solution.parameters parameter

/-- The request of the solution. -/
def build (session : Session) : Except RequestError Request :=
  (buildRequest session.settings session.solution session.overrides).result

/-- The results that a response gives to the request of the solution. -/
def solve (session : Session) (response : Json.Value) : Except RequestError Results :=
  session.build.map fun request ↦ (request.readReply response).results

end Session

end Formulary
