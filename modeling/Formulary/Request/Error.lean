import Formulary.Name.Registry
import Formulary.Solution.Decoding
import Formulary.Text.Quoted

/-!
# Why a request is not built

A request fails where the solution cannot be read and where, under the strict policy, two of its
names have one identifier.
-/

set_option autoImplicit false
set_option relaxedAutoImplicit false

namespace Formulary

/-- The wording of an unreadable solution; what exactly is wrong with a shape is left open. -/
def ReadingError.message : ReadingError → String
  | .missingParameters => "Malformed solution: missing 'parameters' array"
  | .unexpectedShape => "JSON error"

/-- The wording of a collision of names. -/
def Name.Collision.message (collision : Name.Collision) : String :=
  "Names " ++ Text.quotedList collision.names ++ " all normalize to '" ++
    collision.identifier ++ "'"

/-- Why a request is not built. -/
inductive RequestError where
  | unreadable (error : ReadingError)
  | namesCollide (collision : Name.Collision)
  deriving Repr, DecidableEq

/-- The wording of an error. -/
def RequestError.message : RequestError → String
  | .unreadable error => error.message
  | .namesCollide collision => collision.message

end Formulary
