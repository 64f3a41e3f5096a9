import Formulary.Proofs.Name.IdentifierText
import Formulary.Proofs.Request.BuiltRequest
import Formulary.Proofs.Review.Rules
import Mathlib.Data.List.Forall2
import Mathlib.Data.List.Nodup

/-!
# The nodes of a request and its inputs

The nodes of a request are those of the parameters, one after the other, and those of the
calculations behind them. A filter has none, any other parameter one for its number and, where it
has a formula, a second one directly behind it, `Parameter.Yields`. If no two parameters share an
identifier, the inputs give each identifier the number of its own parameter,
`find?_inputs_of_nodup`, which is the number in the node. So nodes and inputs agree, and whatever
the inputs have besides is a filter, `request_accounts`.
-/

set_option autoImplicit false
set_option relaxedAutoImplicit false

namespace Formulary

open Formulary.Name Formulary.Text

variable {settings : Settings} {solution : Solution} {overrides : Overrides} {request : Request}
variable {parameter : Parameter} {parameters : List Parameter} {naming : Substitution} {node : Node}
variable {group : List Node} {key : String}

/-! ### Nodes of parameters -/

/-- The node for the number of a parameter. -/
def valueNode (settings : Settings) (solution : Solution) (overrides : Overrides)
    (parameter : Parameter) : Node where
  name := identifier parameter.name
  kind := parameter.nodeKind
  value := resolvedValue settings solution.parameters overrides parameter

/-- The node for the formula of a parameter. -/
def formulaNode (naming : Substitution) (parameter : Parameter) (formula : String) : Node where
  name := identifier parameter.name
  kind := .calculation
  formula := some (naming.apply (String.ofList (trim formula.toList)))

/-- The nodes that a parameter yields: the one for its number and, directly behind it, the one for
its formula if it has one that is not blank. -/
inductive Parameter.Yields (settings : Settings) (solution : Solution) (overrides : Overrides)
    (parameter : Parameter) : List Node → Prop
  | plain (hformula : ¬IsGivenText parameter.formula) :
      Yields settings solution overrides parameter
        [valueNode settings solution overrides parameter]
  | derived {formula : String} (hformula : parameter.formula = some formula)
      (hgiven : isBlank formula.toList = false) :
      Yields settings solution overrides parameter
        [valueNode settings solution overrides parameter,
          formulaNode (solution.registry settings.reservedWords).substitution parameter formula]

theorem nodeKind_ne_calculation (parameter : Parameter) : parameter.nodeKind ≠ .calculation := by
  rw [Parameter.nodeKind]
  split <;> decide

theorem parameterNodes_of_isFilter (hfilter : parameter.isFilter = true) (naming : Substitution)
    (value : Option Float) : parameterNodes naming value parameter = [] :=
  if_pos hfilter

theorem yields_parameterNodes (hfilter : parameter.isFilter = false) (settings : Settings)
    (solution : Solution) (overrides : Overrides) :
    parameter.Yields settings solution overrides
      (parameterNodes (solution.registry settings.reservedWords).substitution
        (resolvedValue settings solution.parameters overrides parameter) parameter) := by
  rw [parameterNodes, if_neg (by rw [hfilter]; exact Bool.false_ne_true), Parameter.formulaText]
  cases hformula : parameter.formula with
  | none => exact .plain fun ⟨given, hgiven, _⟩ ↦ by rw [hformula] at hgiven; cases hgiven
  | some formula =>
    rw [Option.bind_some, trimmedText_eq]
    split
    · rename_i hblank
      refine .plain fun ⟨given, hgiven, hsome⟩ ↦ ?_
      obtain rfl := Option.some_inj.mp (hformula.symm.trans hgiven)
      exact Bool.false_ne_true (hsome.symm.trans hblank)
    · rename_i hgiven
      exact .derived hformula (Bool.eq_false_iff.mpr hgiven)

/-- The filters leave no group of nodes. -/
theorem flatMap_parameterNodes (naming : Substitution) (number : Parameter → Option Float)
    (parameters : List Parameter) :
    (parameters.flatMap fun parameter ↦ parameterNodes naming (number parameter) parameter) =
      ((parameters.filter fun parameter ↦ !parameter.isFilter).map fun parameter ↦
        parameterNodes naming (number parameter) parameter).flatten := by
  induction parameters with
  | nil => rfl
  | cons parameter parameters ih =>
    rw [List.flatMap_cons, ih]
    cases hfilter : parameter.isFilter with
    | true =>
      rw [parameterNodes_of_isFilter hfilter, List.nil_append,
        List.filter_cons_of_neg (by rw [hfilter]; decide)]
    | false =>
      rw [List.filter_cons_of_pos (by rw [hfilter]; rfl), List.map_cons, List.flatten_cons]

/-- Among the nodes of some parameters those for the numbers are no calculations. -/
theorem filter_flatten_of_yields {groups : List (List Node)}
    (hgroups : List.Forall₂ (fun parameter group ↦
      parameter.Yields settings solution overrides group) parameters groups) :
    (groups.flatten.filter fun node ↦ node.kind != .calculation) =
      parameters.map (valueNode settings solution overrides) := by
  have hvalue (parameter : Parameter) :
      ((valueNode settings solution overrides parameter).kind != .calculation) = true :=
    bne_iff_ne.mpr (nodeKind_ne_calculation parameter)
  have hformula (naming : Substitution) (parameter : Parameter) (formula : String) :
      ¬((formulaNode naming parameter formula).kind != .calculation) = true :=
    Bool.eq_false_iff.mp rfl
  induction hgroups with
  | nil => rfl
  | cons hyields _ ih =>
    rw [List.flatten_cons, List.filter_append, ih, List.map_cons]
    cases hyields with
    | plain => simp [hvalue]
    | derived => simp [hvalue, hformula]

theorem Parameter.Yields.name_eq (hyields : parameter.Yields settings solution overrides group)
    (hnode : node ∈ group) : node.name = identifier parameter.name := by
  cases hyields with
  | plain => rw [List.mem_singleton.mp hnode, valueNode]
  | derived => rcases List.mem_pair.mp hnode with rfl | rfl <;> rfl

/-! ### Nodes of calculations -/

/-- A node computes a calculation by its formula, in which registered names are replaced. -/
def Calculation.IsComputedBy (naming : Substitution) (calculation : Calculation) (node : Node) :
    Prop :=
  node.name = identifier calculation.name ∧ node.kind = .calculation ∧
    node.formula = some (naming.apply (String.ofList (trim calculation.formula.toList)))

theorem forall₂_calculationNodes (naming : Substitution) (calculations : List Calculation) :
    List.Forall₂ (Calculation.IsComputedBy naming)
      (calculations.filter fun calculation ↦ !isBlank calculation.formula.toList)
      (calculationNodes naming calculations) := by
  induction calculations with
  | nil => exact .nil
  | cons calculation calculations ih =>
    rw [calculationNodes, List.filterMap_cons, Calculation.formulaText, trimmedText_eq]
    cases hblank : isBlank calculation.formula.toList with
    | true => rwa [List.filter_cons_of_neg (by rw [hblank]; decide)]
    | false =>
      rw [List.filter_cons_of_pos (by rw [hblank]; rfl)]
      exact .cons ⟨rfl, rfl, rfl⟩ ih

theorem filter_eq_nil_of_isComputedBy {calculations : List Calculation} {computed : List Node}
    (hcomputed : List.Forall₂ (Calculation.IsComputedBy naming) calculations computed) :
    (computed.filter fun node ↦ node.kind != .calculation) = [] := by
  induction hcomputed with
  | nil => rfl
  | cons hcomputes _ ih => rwa [List.filter_cons_of_neg (by rw [hcomputes.2.1]; decide)]

/-! ### All nodes -/

theorem nodes_requestOf (settings : Settings) (solution : Solution) (overrides : Overrides) :
    (requestOf settings solution overrides).nodes =
      (solution.parameters.flatMap fun parameter ↦
        parameterNodes (solution.registry settings.reservedWords).substitution
          (resolvedValue settings solution.parameters overrides parameter) parameter) ++
      calculationNodes (solution.registry settings.reservedWords).substitution
        solution.calculations := by
  rw [requestOf, List.flatMap_map]

/-- The nodes of a request: groups of the parameters but the filters, then the calculations with a
formula. -/
theorem exists_groups (settings : Settings) (solution : Solution) (overrides : Overrides) :
    ∃ groups computed,
      (requestOf settings solution overrides).nodes = groups.flatten ++ computed ∧
      List.Forall₂ (fun parameter group ↦ parameter.Yields settings solution overrides group)
        (solution.parameters.filter fun parameter ↦ !parameter.isFilter) groups ∧
      List.Forall₂
        (Calculation.IsComputedBy (solution.registry settings.reservedWords).substitution)
        (solution.calculations.filter fun calculation ↦ !isBlank calculation.formula.toList)
        computed := by
  refine ⟨(solution.parameters.filter fun parameter ↦ !parameter.isFilter).map fun parameter ↦
    parameterNodes (solution.registry settings.reservedWords).substitution
      (resolvedValue settings solution.parameters overrides parameter) parameter,
    calculationNodes (solution.registry settings.reservedWords).substitution solution.calculations,
    ?_, ?_, forall₂_calculationNodes _ _⟩
  · rw [nodes_requestOf, flatMap_parameterNodes]
  · rw [List.forall₂_map_right_iff, List.forall₂_same]
    intro parameter hparameter
    have hfilter : parameter.isFilter = false := by simpa using (List.mem_filter.mp hparameter).2
    exact yields_parameterNodes hfilter settings solution overrides

/-- The nodes that are no calculations are those for the numbers of the parameters but the
filters. -/
theorem filter_nodes (settings : Settings) (solution : Solution) (overrides : Overrides) :
    ((requestOf settings solution overrides).nodes.filter fun node ↦ node.kind != .calculation) =
      (solution.parameters.filter fun parameter ↦ !parameter.isFilter).map
        (valueNode settings solution overrides) := by
  obtain ⟨groups, computed, hnodes, hgroups, hcomputed⟩ := exists_groups settings solution overrides
  rw [hnodes, List.filter_append, filter_flatten_of_yields hgroups,
    filter_eq_nil_of_isComputedBy hcomputed, List.append_nil]

/-- A node that is no calculation is the one for the number of a parameter that is no filter. -/
theorem mem_nodes_of_ne_calculation_iff :
    (node ∈ (requestOf settings solution overrides).nodes ∧ node.kind ≠ .calculation) ↔
      ∃ parameter ∈ solution.parameters, parameter.isFilter = false ∧
        valueNode settings solution overrides parameter = node := by
  rw [← bne_iff_ne, ← List.mem_filter (p := fun node : Node ↦ node.kind != .calculation),
    filter_nodes, List.mem_map]
  simp only [List.mem_filter, Bool.not_eq_true', and_assoc]

/-- The name of a node is an identifier. -/
theorem identifier_name_of_mem_nodes
    (hnode : node ∈ (requestOf settings solution overrides).nodes) :
    identifier node.name = node.name := by
  rw [nodes_requestOf, List.mem_append, List.mem_flatMap, calculationNodes,
    List.mem_filterMap] at hnode
  rcases hnode with ⟨parameter, -, hnode⟩ | ⟨calculation, -, hnode⟩
  · cases hfilter : parameter.isFilter with
    | true =>
      rw [parameterNodes_of_isFilter hfilter] at hnode
      cases hnode
    | false =>
      rw [(yields_parameterNodes hfilter settings solution overrides).name_eq hnode,
        identifier_identifier]
  · obtain ⟨formula, -, rfl⟩ := Option.map_eq_some_iff.mp hnode
    exact identifier_identifier calculation.name

/-! ### Inputs -/

/-- The number of a parameter is found under its identifier if it shares that with no other. -/
theorem find?_inputs_of_nodup
    (hdistinct : (solution.parameters.map fun parameter ↦ identifier parameter.name).Nodup)
    (hparameter : parameter ∈ solution.parameters) (settings : Settings) (overrides : Overrides) :
    Table.find? (identifier parameter.name) (requestOf settings solution overrides).inputs =
      resolvedValue settings solution.parameters overrides parameter := by
  rw [find?_inputs]
  generalize resolvedValue settings solution.parameters overrides = number
  obtain ⟨front, back, hsplit⟩ := List.append_of_mem hparameter
  rw [hsplit, List.map_append, List.map_cons, List.nodup_middle, List.nodup_cons,
    ← List.map_append] at hdistinct
  have hother : ∀ other ∈ front ++ back, (if identifier parameter.name = identifier other.name then
      number other else none) = none := by
    refine fun other hmember ↦ if_neg fun hsame ↦ hdistinct.1 ?_
    rw [hsame]
    exact List.mem_map_of_mem hmember
  obtain ⟨hfront, hback⟩ := List.forall_mem_append.mp hother
  rw [hsplit, List.findSome?_append, List.findSome?_eq_none_iff.mpr hfront, Option.none_or,
    List.findSome?_cons, if_pos rfl, List.findSome?_eq_none_iff.mpr hback]
  cases number parameter <;> rfl

/-- Every input has the identifier of a parameter. -/
theorem exists_parameter_of_mem_inputs
    (hkey : key ∈ (requestOf settings solution overrides).inputs.map Prod.fst) :
    ∃ parameter ∈ solution.parameters, key = identifier parameter.name := by
  have hfound := mt Table.find?_eq_none_iff.mp (not_not.mpr hkey)
  rw [find?_inputs, ← ne_eq, Option.ne_none_iff_exists'] at hfound
  obtain ⟨value, hvalue⟩ := hfound
  obtain ⟨parameter, hparameter, hnumber⟩ := List.exists_of_findSome?_eq_some hvalue
  exact ⟨parameter, hparameter, (Option.ite_none_right_eq_some.mp hnumber).1⟩

/-! ### Nodes and inputs -/

/-- In the request of a solution whose parameters have identifiers of their own, the nodes that are
no calculations are one for each parameter but the filters, in order, and such a node has a number
just where the inputs have it under the name of the node. An input under the name of no such node is
a filter. The nodes are groups, one for each parameter but the filters, and behind them the nodes of
the calculations with a formula, in order. All names are identifiers. -/
theorem request_accounts
    (hdistinct : (solution.parameters.map fun parameter ↦ identifier parameter.name).Nodup)
    (hbuilt : (buildRequest settings solution overrides).result = .ok request) :
    ((request.nodes.filter fun node ↦ node.kind != .calculation).map fun node ↦
        (node.name, node.kind)) =
      ((solution.parameters.filter fun parameter ↦ !parameter.isFilter).map fun parameter ↦
        (identifier parameter.name, parameter.nodeKind)) ∧
    (∀ node ∈ request.nodes, node.kind ≠ .calculation → ∀ value,
      node.value = some value ↔ Table.find? node.name request.inputs = some value) ∧
    (∀ key ∈ request.inputs.map Prod.fst,
      (∀ node ∈ request.nodes, node.kind ≠ .calculation → node.name ≠ key) →
        ∃ parameter ∈ solution.parameters, parameter.isFilter = true ∧
          key = identifier parameter.name) ∧
    (∃ groups computed, request.nodes = groups.flatten ++ computed ∧
      List.Forall₂ (fun parameter group ↦ parameter.Yields settings solution overrides group)
        (solution.parameters.filter fun parameter ↦ !parameter.isFilter) groups ∧
      List.Forall₂
        (Calculation.IsComputedBy (solution.registry settings.reservedWords).substitution)
        (solution.calculations.filter fun calculation ↦ !isBlank calculation.formula.toList)
        computed) ∧
    ∀ name ∈ request.inputs.map Prod.fst ++ request.nodes.map (·.name) ++ request.target,
      identifier name = name := by
  rw [eq_requestOf_of_built hbuilt]
  refine ⟨?_, fun node hnode hkind value ↦ ?_, fun key hkey hnone ↦ ?_,
    exists_groups settings solution overrides, fun name hname ↦ ?_⟩
  · rw [filter_nodes, List.map_map]
    rfl
  · obtain ⟨parameter, hparameter, -, rfl⟩ := mem_nodes_of_ne_calculation_iff.mp ⟨hnode, hkind⟩
    rw [valueNode, find?_inputs_of_nodup hdistinct hparameter]
  · obtain ⟨parameter, hparameter, rfl⟩ := exists_parameter_of_mem_inputs hkey
    refine ⟨parameter, hparameter, Decidable.byContradiction fun hfilter ↦ ?_, rfl⟩
    obtain ⟨hnode, hkind⟩ := mem_nodes_of_ne_calculation_iff.mpr
      ⟨parameter, hparameter, Bool.eq_false_iff.mpr hfilter, rfl⟩
    exact hnone _ hnode hkind rfl
  · rcases List.mem_append.mp hname with hrequested | htarget
    · rcases List.mem_append.mp hrequested with hinput | hnamed
      · obtain ⟨parameter, -, rfl⟩ := exists_parameter_of_mem_inputs hinput
        exact identifier_identifier parameter.name
      · obtain ⟨node, hnode, rfl⟩ := List.mem_map.mp hnamed
        exact identifier_name_of_mem_nodes hnode
    · obtain ⟨calculation, -, rfl⟩ := List.mem_map.mp htarget
      exact identifier_identifier calculation.name

/-- A filter with a number, a price with a formula, a volume without a number, a calculation without
a formula and one with a formula. -/
def billing : Solution where
  parameters := [
    { id := "1", name := "Country", display := .filter, value := some (.number 3) },
    { id := "2", name := "Unit Price", value := some (.number 4), formula := some " Country * 2 " },
    { id := "3", name := "Volume" }]
  calculations := [
    { id := "4", name := "Draft", formula := " " },
    { id := "5", name := "Total", formula := "Unit Price * Volume", displayResult := some true }]

/-- The request for the billing has two groups of nodes and one node that computes the total. -/
theorem request_accounts_billing :
    (billing.parameters.map fun parameter ↦ identifier parameter.name).Nodup ∧
      ∃ request, (buildRequest .standard billing []).result = .ok request ∧
        ((request.nodes.filter fun node ↦ node.kind != .calculation).map fun node ↦
          (node.name, node.kind)) = [("Unit_Price", .user), ("Volume", .user)] ∧
        (∀ node ∈ request.nodes, node.kind ≠ .calculation → node.name = "Unit_Price" →
          node.value = some 4) ∧
        ∃ (groups : List (List Node)) (computed : List Node),
          request.nodes = groups.flatten ++ computed ∧ groups.length = 2 ∧
            computed.length = 1 := by
  have hdistinct : (billing.parameters.map fun parameter ↦ identifier parameter.name).Nodup := by
    decide +kernel
  have hbuilt := @built_of_ne_refuse .standard (by decide) billing []
  have hprice : Table.find? "Unit_Price" (requestOf .standard billing []).inputs = some 4 := by
    decide +kernel
  obtain ⟨hvalues, hinputs, -, ⟨groups, computed, hnodes, hgroups, hcomputed⟩, -⟩ :=
    request_accounts hdistinct hbuilt
  refine ⟨hdistinct, _, hbuilt, hvalues.trans (by decide +kernel), fun node hnode hkind hname ↦ ?_,
    groups, computed, hnodes, ?_, ?_⟩
  · exact (hinputs node hnode hkind 4).mpr (hname ▸ hprice)
  · rw [← hgroups.length_eq]
    decide +kernel
  · rw [← hcomputed.length_eq]
    decide +kernel

end Formulary
