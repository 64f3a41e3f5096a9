/-!
# Categories

Parameters and calculations are grouped by a category. Older records give its name only, newer ones
a name and a colour.
-/

set_option autoImplicit false
set_option relaxedAutoImplicit false

namespace Formulary

/-- A category: a bare name, or a name with a colour. -/
inductive Category where
  | plain (name : String)
  | coloured (name colour : String)
  deriving Repr, DecidableEq

/-- The name of a category. -/
def Category.name : Category → String
  | .plain name => name
  | .coloured name _ => name

end Formulary
