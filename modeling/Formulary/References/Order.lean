import Formulary.Name.Identifier
import Formulary.Name.WholeWord
import Formulary.References.Graph
import Formulary.Solution.Basic

/-!
# The order of calculations

A calculation refers to another one where its formula contains the name of that one, or one of its
aliases, as a whole word; what a parameter is also called belongs to the parameter.
`EvaluationOrder` lists the calculations that lie on no cycle of references, each after those that
it refers to, and the cycles. `calculationOrder` insists that there are none.
-/

set_option autoImplicit false
set_option relaxedAutoImplicit false

namespace Formulary

open Formulary.Name

/-! ### References -/

/-- The names and identifiers of parameters, which are no references to calculations. -/
def parameterWords (parameters : List Parameter) : List String :=
  parameters.flatMap fun parameter ↦ [parameter.name, identifier parameter.name]

/-- Whether a formula refers to a name, except by words that belong to parameters. -/
def refersTo (taken : List String) (formula name : String) : Bool :=
  !isBlankName name && (aliases name).any fun word ↦
    !word.isEmpty && !taken.contains word && containsWord formula word

/-- The references between calculations, as a graph on their positions. -/
def referenceGraph (parameters : List Parameter) (calculations : List Calculation) : Graph :=
  let taken := parameterWords parameters
  { arrows := calculations.map fun source ↦
      (List.range calculations.length).filter fun target ↦
        calculations[target]?.any fun calculation ↦
          refersTo taken source.formula calculation.name }

/-! ### Orders -/

/-- The positions of calculations: those on no cycle in an order in which each comes after those
that it refers to, and the cycles. -/
structure EvaluationOrder where
  order : List Nat
  cycles : List (List Nat)
  deriving Repr, DecidableEq

/-- The positions on cycles, in ascending order. -/
def EvaluationOrder.cyclic (evaluation : EvaluationOrder) : List Nat :=
  Text.arranged (fun first second ↦ decide (first ≤ second)) evaluation.cycles.flatten

/-- Whether there are no cycles. -/
def EvaluationOrder.isAcyclic (evaluation : EvaluationOrder) : Bool :=
  evaluation.cycles.isEmpty

/-- The order of some calculations. -/
def evaluationOrder (parameters : List Parameter) (calculations : List Calculation) :
    EvaluationOrder :=
  let graph := referenceGraph parameters calculations
  { order := graph.order, cycles := graph.cycles }

/-- Calculations that refer to each other in a circle. -/
structure CircularReference where
  names : List String
  deriving Repr, DecidableEq

/-- The wording of a circle. -/
def CircularReference.message (circle : CircularReference) : String :=
  "Circular reference between calculations: " ++ String.intercalate " -> " circle.names

/-- The names at some positions. -/
def namesAt (calculations : List Calculation) (positions : List Nat) : List String :=
  positions.filterMap fun position ↦ calculations[position]?.map (·.name)

/-- The positions of all calculations, each after those that it refers to, or the first cycle. -/
def calculationOrder (parameters : List Parameter) (calculations : List Calculation) :
    Except CircularReference (List Nat) :=
  let evaluation := evaluationOrder parameters calculations
  match evaluation.cycles with
  | [] => .ok evaluation.order
  | cycle :: _ => .error ⟨namesAt calculations cycle⟩

end Formulary
