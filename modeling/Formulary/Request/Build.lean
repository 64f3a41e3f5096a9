import Formulary.Log
import Formulary.Request.Basic
import Formulary.Selection
import Formulary.Table

/-!
# Building a request

`buildRequest` turns a solution and what a user entered into a request. Every name in it is an
identifier, and every formula has the registered names of the solution replaced by theirs. A missing
value never fails the build: the node goes out without it. The only failure is a collision of names
under the policy that refuses it. What was reported comes with the result.
-/

set_option autoImplicit false
set_option relaxedAutoImplicit false

namespace Formulary

open Formulary.Name

/-! ### Parameters -/

/-- The kind of the node of a parameter. -/
def Parameter.nodeKind (parameter : Parameter) : NodeKind :=
  if parameter.access.isCompany then .company else .user

/-- The nodes of a parameter: one for its value and, where it is derived, one for its formula.
Filters have none. -/
def parameterNodes (naming : Substitution) (value : Option Float) (parameter : Parameter) :
    List Node :=
  if parameter.isFilter then []
  else
    { name := identifier parameter.name, kind := parameter.nodeKind, value } ::
      (parameter.formulaText.map fun formula ↦
        ({ name := identifier parameter.name, kind := .calculation,
           formula := some (naming.apply formula) } : Node)).toList

/-- What is reported about a parameter: that the company gave it no value, and that it is a
filter. -/
def parameterNotices (value : Option Float) (parameter : Parameter) : List Notice :=
  (if value.isNone && parameter.access.isCompany then [.companyValueMissing parameter.name]
    else []) ++
  (if parameter.isFilter then [.filterLeftOut parameter.name] else [])

/-- Adds the value of a parameter to the inputs; the first one of a name stays. -/
def addInput (inputs : Table Float) (name : String) (value : Option Float) : Table Float :=
  match value with
  | some value => Table.insertNew (identifier name) value inputs
  | none => inputs

/-! ### Calculations -/

/-- A text, unless it is empty. -/
def nonEmptyText (text : String) : Option String :=
  if text.isEmpty then none else some text

/-- The category that a node carries: any but an empty bare name. -/
def nodeCategory (category : Category) : Option Category :=
  match category with
  | .plain name => if name.isEmpty then none else some category
  | .coloured _ _ => some category

/-- The node of a calculation. Only what says something is sent along: texts that are not empty, an
output mark that is set, a level other than zero. -/
def calculationNode (naming : Substitution) (calculation : Calculation) (formula : String) :
    Node where
  name := identifier calculation.name
  kind := .calculation
  formula := some (naming.apply formula)
  unit := calculation.units.bind nonEmptyText
  description := calculation.description.bind nonEmptyText
  output := calculation.output.filter fun output ↦ output
  level := (calculation.level.bind Quantity.reading).filter fun level ↦ !(level == 0.0)
  category := calculation.category.bind nodeCategory

/-- The nodes of the calculations that have a formula. -/
def calculationNodes (naming : Substitution) (calculations : List Calculation) : List Node :=
  calculations.filterMap fun calculation ↦
    calculation.formulaText.map (calculationNode naming calculation)

/-! ### Collisions -/

/-- What a policy makes of the collisions of names: notices, or a refusal. -/
def judgeCollisions (policy : CollisionPolicy) (collisions : List Collision) :
    Except RequestError (List Notice) :=
  match policy, collisions with
  | .ignore, _ => .ok []
  | .warn, found => .ok (found.map .namesMerged)
  | .refuse, [] => .ok []
  | .refuse, first :: _ => .error (.namesCollide first)

/-! ### Requests -/

/-- The request of a solution whose names do not collide, or may. -/
def requestOf (settings : Settings) (solution : Solution) (overrides : Overrides) : Request :=
  let naming := (solution.registry settings.reservedWords).substitution
  let valued := solution.parameters.map fun parameter ↦
    (parameter, resolvedValue settings solution.parameters overrides parameter)
  { inputs := valued.foldl
      (fun inputs (parameter, value) ↦ addInput inputs parameter.name value) []
    nodes := (valued.flatMap fun (parameter, value) ↦ parameterNodes naming value parameter) ++
      calculationNodes naming solution.calculations
    target := (solution.calculations.filter (·.isDisplayed)).map fun calculation ↦
      identifier calculation.name }

/-- What building a request gave, and what was reported. -/
structure Build where
  result : Except RequestError Request
  log : List Notice

/-- Builds the request for every calculation whose result is shown. -/
def buildRequest (settings : Settings) (solution : Solution) (overrides : Overrides) : Build :=
  let collisions := (solution.registry settings.reservedWords).collisions
  match judgeCollisions settings.collisionPolicy collisions with
  | .error error => ⟨.error error, []⟩
  | .ok notices =>
    let request := requestOf settings solution overrides
    { result := .ok request
      log := notices ++
        (solution.parameters.flatMap fun parameter ↦
          parameterNotices (resolvedValue settings solution.parameters overrides parameter)
            parameter) ++
        [.requestBuilt request.inputs.length request.nodes.length request.target] }

/-- A solution with a further calculation, unless it has one of that identity. -/
def Solution.withCandidate (solution : Solution) (candidate : Calculation) : Solution :=
  if solution.calculations.any fun calculation ↦ calculation.id == candidate.id then solution
  else { solution with calculations := solution.calculations ++ [candidate] }

/-- Builds the request for a single calculation, which joins the solution if it is new. -/
def buildForTarget (settings : Settings) (solution : Solution) (overrides : Overrides)
    (candidate : Calculation) : Build :=
  let build := buildRequest settings (solution.withCandidate candidate) overrides
  match build.result with
  | .ok request =>
    { build with result := .ok { request with target := [identifier candidate.name] } }
  | .error _ => build

/-- A request, if there is one, and what was reported. -/
structure PayloadBuild where
  request : Option Request
  log : List Notice

/-- Builds a request from a JSON value; whatever fails is reported and gives none. -/
def buildFromPayload (settings : Settings) (payload : Json.Value) (overrides : Overrides) :
    PayloadBuild :=
  match readSolution payload with
  | .error error => ⟨none, [.requestNotBuilt (.unreadable error)]⟩
  | .ok solution =>
    let build := buildRequest settings solution overrides
    match build.result with
    | .ok request => ⟨some request, build.log⟩
    | .error error => ⟨none, build.log ++ [.requestNotBuilt error]⟩

/-- Builds the requests of two solutions that are to be compared. -/
def buildPair (settings : Settings) (first : Solution) (firstOverrides : Overrides)
    (second : Solution) (secondOverrides : Overrides) : Build × Build :=
  (buildRequest settings first firstOverrides, buildRequest settings second secondOverrides)

end Formulary
