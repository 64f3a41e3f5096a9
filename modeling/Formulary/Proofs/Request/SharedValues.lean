import Formulary.Proofs.Ledger.Keys
import Formulary.Proofs.Name.IdentifierText
import Formulary.Proofs.Request.BuiltRequest

/-!
# Values in requests and in previews

The inputs of a request and the ledger of a preview both give a word the number of the first
parameter with a number that answers to it, but not to the same words: in the inputs a parameter
answers to its identifier, in the ledger to its name and its identity too. The name does no harm,
since it is the identifier of another parameter only where the two share it. So what the inputs say
the ledger says, `get?_of_mem_inputs`, unless the identity of a parameter is the identifier of a
later one, as in `tariffs`.
-/

set_option autoImplicit false
set_option relaxedAutoImplicit false

namespace Formulary

open Formulary.Name

variable {settings : Settings} {solution : Solution} {overrides : Overrides} {parameter : Parameter}
variable {key : String} {value : Float}

/-! ### Numbers -/

/-- Only a dropdown can have a number for the solver that a preview does not know. -/
theorem resolvedValue_of_display_ne (hdisplay : parameter.display ≠ .dropdown) (settings : Settings)
    (parameters : List Parameter) (overrides : Overrides) :
    resolvedValue settings parameters overrides parameter =
      Ledger.parameterValue overrides parameter := by
  rw [resolvedValue, selectedValue, if_neg fun h ↦ hdisplay h.1, Option.none_or,
    Ledger.parameterValue]

/-- The inputs of a solution without dropdowns come from the numbers of a preview. -/
theorem find?_inputs_of_display_ne
    (hdisplay : ∀ parameter ∈ solution.parameters, parameter.display ≠ .dropdown)
    (settings : Settings) (overrides : Overrides) (key : String) :
    Table.find? key (requestOf settings solution overrides).inputs =
      solution.parameters.findSome? fun parameter ↦
        if key = identifier parameter.name then Ledger.parameterValue overrides parameter
        else none := by
  rw [find?_inputs, ← List.head?_filterMap, ← List.head?_filterMap]
  refine congrArg List.head? (List.filterMap_congr fun parameter hparameter ↦ ?_)
  rw [resolvedValue_of_display_ne (hdisplay parameter hparameter)]

/-! ### Words -/

/-- In front of a parameter with a key as its identifier, none answers to the key by its identity
alone. Only parameters with a number count. -/
def Solution.KeepsApart (solution : Solution) (overrides : Overrides) (key : String) : Prop :=
  (solution.parameters.filter fun parameter ↦
    (Ledger.parameterValue overrides parameter).isSome).Pairwise fun earlier later ↦
      identifier later.name = key → key ∈ Ledger.parameterKeys earlier →
        key ∈ [earlier.name, identifier earlier.name]

instance : Decidable (solution.KeepsApart overrides key) :=
  inferInstanceAs (Decidable (List.Pairwise _ _))

/-- The first parameter with a number that has a key as its identifier is the first that answers to
the key. -/
theorem findSome?_parameterKeys (hapart : solution.KeepsApart overrides key) (hkey : key ≠ "")
    (hfound : (solution.parameters.findSome? fun parameter ↦
      if key = identifier parameter.name then Ledger.parameterValue overrides parameter
      else none) = some value) :
    (solution.parameters.findSome? fun parameter ↦
      if key ∈ Ledger.parameterKeys parameter ∧ key ≠ "" then
        Ledger.parameterValue overrides parameter
      else none) = some value := by
  obtain ⟨front, owner, back, hsplit, howner, hfront⟩ := List.findSome?_eq_some_iff.mp hfound
  obtain ⟨hidentifier, hvalue⟩ := Option.ite_none_right_eq_some.mp howner
  refine List.findSome?_eq_some_iff.mpr ⟨front, owner, back, hsplit, ?_, fun earlier hearlier ↦ ?_⟩
  · have hword : key ∈ Ledger.parameterKeys owner := by
      simp [Ledger.parameterKeys, hidentifier]
    rw [if_pos ⟨hword, hkey⟩, hvalue]
  · refine Option.eq_none_iff_forall_ne_some.mpr fun number hanswer ↦ ?_
    obtain ⟨⟨hword, -⟩, hnumber⟩ := Option.ite_none_right_eq_some.mp hanswer
    rw [Solution.KeepsApart, hsplit, List.filter_append, List.pairwise_append] at hapart
    have hnamed : key ∈ [earlier.name, identifier earlier.name] :=
      hapart.2.2 earlier (List.mem_filter.mpr ⟨hearlier, by rw [hnumber]; rfl⟩) owner
        (List.mem_filter.mpr ⟨List.mem_cons_self, by rw [hvalue]; rfl⟩) hidentifier.symm hword
    -- a name that is an identifier is its own, so `earlier` would have been found
    have hshared : key = identifier earlier.name := by
      rcases List.mem_pair.mp hnamed with hname | hname
      · rw [← hname, hidentifier, identifier_identifier]
      · exact hname
    have habsent := hfront earlier hearlier
    rw [if_pos hshared, hnumber] at habsent
    cases habsent

/-! ### Inputs and ledgers -/

/-- A solution without dropdowns has a request with an input for every parameter with a number, and
each input under a name that no identity takes away has its number in a preview too. -/
theorem get?_of_mem_inputs (hpolicy : settings.collisionPolicy ≠ .refuse)
    (hdisplay : ∀ parameter ∈ solution.parameters, parameter.display ≠ .dropdown)
    (overrides : Overrides) :
    ∃ request, (buildRequest settings solution overrides).result = .ok request ∧
      (∀ parameter ∈ solution.parameters,
        (Ledger.parameterValue overrides parameter).isSome = true →
          identifier parameter.name ∈ request.inputs.map Prod.fst) ∧
      ∀ name value, (name, value) ∈ request.inputs → name ≠ "" →
        solution.KeepsApart overrides name →
          (Ledger.ofSolution ⟨solution.parameters, []⟩ overrides).get? name = some value := by
  refine ⟨_, built_of_ne_refuse hpolicy solution overrides, fun parameter hparameter hnumber ↦ ?_,
    fun name value hentry hname hapart ↦ ?_⟩
  · refine Decidable.byContradiction fun hmissing ↦ ?_
    have hnone := Table.find?_eq_none_iff.mpr hmissing
    rw [find?_inputs_of_display_ne hdisplay, List.findSome?_eq_none_iff] at hnone
    have hvalue := hnone parameter hparameter
    rw [if_pos rfl] at hvalue
    rw [hvalue] at hnumber
    cases hnumber
  · have hfound := (Table.find?_eq_some_iff_mem (ascending_inputs ..)).mpr hentry
    rw [find?_inputs_of_display_ne hdisplay] at hfound
    rw [Ledger.ofSolution, List.foldl_nil, Ledger.get?_ofParameters_eq_findSome?]
    exact findSome?_parameterKeys hapart hname hfound

/-- Settings that let names collide. -/
def lenient : Settings :=
  { Settings.standard with collisionPolicy := .ignore }

/-- Two prices with one identifier, which is the name of the second, and a discount. -/
def unitPrices : Solution where
  parameters := [
    { id := "price", name := "Unit Price", testValue := some (.number 4) },
    { id := "other-price", name := "Unit_Price", testValue := some (.number 9) },
    { id := "discount", name := "Discount" }]
  calculations := []

/-- A preview knows the unit price of the request. -/
theorem get?_unitPrices :
    unitPrices.KeepsApart [("discount", .number 2)] "Unit_Price" ∧
      (∃ request, (buildRequest lenient unitPrices [("discount", .number 2)]).result = .ok request ∧
        ("Unit_Price", 4) ∈ request.inputs) ∧
      (Ledger.ofSolution ⟨unitPrices.parameters, []⟩ [("discount", .number 2)]).get? "Unit_Price" =
        some 4 := by
  have hpolicy : lenient.collisionPolicy ≠ .refuse := by decide
  have hdisplay : ∀ parameter ∈ unitPrices.parameters, parameter.display ≠ .dropdown := by
    decide +kernel
  have hapart : unitPrices.KeepsApart [("discount", .number 2)] "Unit_Price" := by decide +kernel
  have hinput : ("Unit_Price", 4) ∈
      (requestOf lenient unitPrices [("discount", .number 2)]).inputs :=
    (Table.find?_eq_some_iff_mem (ascending_inputs ..)).mp (by decide +kernel)
  obtain ⟨request, hrequest, -, hknown⟩ :=
    get?_of_mem_inputs hpolicy hdisplay [("discount", .number 2)]
  rw [← eq_requestOf_of_built hrequest] at hinput
  exact ⟨hapart, ⟨request, hrequest, hinput⟩, hknown _ _ hinput (by decide) hapart⟩

/-- A tariff whose identity is the name of the rate behind it. -/
def tariffs : Solution where
  parameters := [
    { id := "Rate", name := "Tariff", testValue := some (.number 1) },
    { id := "2", name := "Rate", testValue := some (.number 2) }]
  calculations := []

/-- The request for the tariffs has the rate as an input, and a preview takes the tariff for it. -/
theorem tariff_for_rate :
    (∀ parameter ∈ tariffs.parameters, parameter.display ≠ .dropdown) ∧
      ∃ request, (buildRequest lenient tariffs []).result = .ok request ∧
        ("Rate", 2) ∈ request.inputs ∧
          (Ledger.ofSolution ⟨tariffs.parameters, []⟩ []).get? "Rate" ≠ some 2 :=
  ⟨by decide +kernel, requestOf lenient tariffs [], rfl,
    (Table.find?_eq_some_iff_mem (ascending_inputs ..)).mp (by decide +kernel), by decide +kernel⟩

end Formulary
