import Formulary.Proofs.Request.TableOrder
import Formulary.Request.Build

/-!
# Built requests

Building a request fails only where names collide and the policy refuses that, `built_of_ne_refuse`,
and what it gives is `requestOf`, `eq_requestOf_of_built`. The inputs of the request are in order
and give each identifier the number of the first parameter with that identifier that has one,
`find?_inputs`. Among the nodes is one for every calculation with a formula,
`calculationNode_mem_nodes`.
-/

set_option autoImplicit false
set_option relaxedAutoImplicit false

namespace Formulary

open Formulary.Name

variable {settings : Settings} {solution : Solution} {overrides : Overrides} {request : Request}

/-! ### Results -/

/-- Unless the policy refuses collisions, there is a request. -/
theorem built_of_ne_refuse (hpolicy : settings.collisionPolicy ≠ .refuse) (solution : Solution)
    (overrides : Overrides) : (buildRequest settings solution overrides).result =
      .ok (requestOf settings solution overrides) := by
  rw [buildRequest]
  cases hsettings : settings.collisionPolicy with
  | warn => rfl
  | refuse => exact absurd hsettings hpolicy
  | ignore => rfl

theorem eq_requestOf_of_built
    (hbuilt : (buildRequest settings solution overrides).result = .ok request) :
    request = requestOf settings solution overrides := by
  simp only [buildRequest] at hbuilt
  split at hbuilt
  · cases hbuilt
  · exact (Except.ok.inj hbuilt).symm

/-! ### Inputs -/

theorem ascending_addInput {inputs : Table Float} (hascending : inputs.Ascending) (name : String)
    (value : Option Float) : (addInput inputs name value).Ascending := by
  cases value with
  | none => exact hascending
  | some value => exact Table.ascending_insertNew hascending _ value

/-- A number becomes the input of its identifier, unless that has one already. -/
theorem find?_addInput {inputs : Table Float} (hascending : inputs.Ascending) (name : String)
    (value : Option Float) (key : String) : Table.find? key (addInput inputs name value) =
      (Table.find? key inputs).or (if key = identifier name then value else none) := by
  cases value with
  | none => simp [addInput]
  | some value => exact Table.find?_insertNew hascending _ key value

/-- What the inputs are after some parameters with their numbers. -/
theorem foldl_addInput (number : Parameter → Option Float) (parameters : List Parameter)
    {inputs : Table Float} (hascending : inputs.Ascending) :
    (parameters.foldl (fun inputs parameter ↦ addInput inputs parameter.name (number parameter))
        inputs).Ascending ∧
      ∀ key, Table.find? key (parameters.foldl
          (fun inputs parameter ↦ addInput inputs parameter.name (number parameter)) inputs) =
        (Table.find? key inputs).or (parameters.findSome? fun parameter ↦
          if key = identifier parameter.name then number parameter else none) := by
  induction parameters generalizing inputs with
  | nil => exact ⟨hascending, fun key ↦ (Option.or_none ..).symm⟩
  | cons parameter parameters ih =>
    obtain ⟨hordered, hfind⟩ := ih (ascending_addInput hascending parameter.name (number parameter))
    refine ⟨hordered, fun key ↦ ?_⟩
    rw [List.foldl_cons, hfind, find?_addInput hascending, Option.or_assoc, List.findSome?_cons]
    cases (if key = identifier parameter.name then number parameter else none) <;> rfl

theorem inputs_requestOf (settings : Settings) (solution : Solution) (overrides : Overrides) :
    (requestOf settings solution overrides).inputs = solution.parameters.foldl
      (fun inputs parameter ↦ addInput inputs parameter.name
        (resolvedValue settings solution.parameters overrides parameter)) [] :=
  List.foldl_map

theorem ascending_inputs (settings : Settings) (solution : Solution) (overrides : Overrides) :
    Table.Ascending (requestOf settings solution overrides).inputs := by
  rw [inputs_requestOf]
  exact (foldl_addInput _ _ Table.ascending_nil).1

/-- The inputs give an identifier the number of the first parameter with it that has one. -/
theorem find?_inputs (settings : Settings) (solution : Solution) (overrides : Overrides)
    (key : String) : Table.find? key (requestOf settings solution overrides).inputs =
      solution.parameters.findSome? fun parameter ↦
        if key = identifier parameter.name then
          resolvedValue settings solution.parameters overrides parameter
        else none := by
  rw [inputs_requestOf, (foldl_addInput _ _ Table.ascending_nil).2]
  exact Option.none_or

/-! ### Nodes -/

/-- A calculation with a formula has its node in the request. -/
theorem calculationNode_mem_nodes {calculation : Calculation} {formula : String}
    (hcalculation : calculation ∈ solution.calculations)
    (hformula : calculation.formulaText = some formula) :
    calculationNode (solution.registry settings.reservedWords).substitution calculation formula ∈
      (requestOf settings solution overrides).nodes := by
  refine List.mem_append_right _ (List.mem_filterMap.mpr ⟨calculation, hcalculation, ?_⟩)
  rw [hformula]
  rfl

end Formulary
