import Formulary.Solution.Basic

/-!
# Requests to the solver

A request lists the values of the inputs by name, the nodes that the solver works on, and the names
whose values are wanted, in the order in which they are to come back.
-/

set_option autoImplicit false
set_option relaxedAutoImplicit false

namespace Formulary

/-- The kinds of nodes: values entered by the user, values owned by the company, and formulas. -/
inductive NodeKind where
  | user
  | company
  | calculation
  deriving Repr, DecidableEq

/-- A node of a request. -/
structure Node where
  name : String
  kind : NodeKind
  value : Option Float := none
  formula : Option String := none
  unit : Option String := none
  description : Option String := none
  output : Option Bool := none
  level : Option Float := none
  category : Option Category := none
  deriving Repr, DecidableEq

/-- A request to the solver. -/
structure Request where
  inputs : List (String × Float)
  nodes : List Node
  target : List String
  deriving Repr, DecidableEq

/-- The first node of a name and a kind. -/
def Request.node? (request : Request) (name : String) (kind : NodeKind) : Option Node :=
  request.nodes.find? fun node ↦ node.name == name && node.kind == kind

end Formulary
