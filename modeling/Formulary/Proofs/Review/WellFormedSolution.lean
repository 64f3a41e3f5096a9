import Formulary.Proofs.Review.Rules

/-!
# Well-formed solutions

`Solution.IsWellFormed` says what a solution has to be for authors to have nothing to mend: its
parameters are complete and told apart by their names, its formulas can be parsed and name records
only, and no calculation refers back to itself. The main statement, `reviewSolution_eq_nil_iff`, is
that these solutions are the ones that a review passes: no fault of theirs is missed, and nothing
else is found fault with.
-/

set_option autoImplicit false
set_option relaxedAutoImplicit false

namespace Formulary

open Formulary.Formula Formulary.Name Formulary.Text Relation

/-- A solution in which every record has what it needs. -/
structure Solution.IsWellFormed (reserved : List String) (solution : Solution) : Prop where
  named : ∀ parameter ∈ solution.parameters, isBlankName parameter.name = false
  measured : ∀ parameter ∈ solution.parameters, IsGivenText parameter.unit
  distinct : ∀ first ∈ solution.parameters, ∀ second ∈ solution.parameters,
    first.id ≠ second.id → comparableName first.name ≠ comparableName second.name
  valued : ∀ parameter ∈ solution.parameters, parameter.access = .fixed →
    parameter.HasDisplayedValue
  written : ∀ calculation ∈ solution.calculations, isBlank calculation.formula.toList = false
  parsed : ∀ calculation ∈ solution.calculations, ∃ tree,
    parse ((solution.registry reserved).substitution.replace (trim calculation.formula.toList)) =
      .ok tree
  resolved : ∀ calculation ∈ solution.calculations,
    ∀ token ∈ candidates calculation.formula reserved, solution.Names token
  selfless : ∀ calculation ∈ solution.calculations, ¬MentionsItself calculation.formula
  acyclic : ∀ position,
    ¬TransGen (Refers solution.parameters solution.calculations) position position

/-- Each parameter is compared with those before it only, but names that are the same either way
round are found. -/
theorem pairwise_comparableName_iff (parameters : List Parameter) :
    (parameters.Pairwise fun earlier later ↦ earlier.id ≠ later.id →
        comparableName earlier.name ≠ comparableName later.name) ↔
      ∀ first ∈ parameters, ∀ second ∈ parameters, first.id ≠ second.id →
        comparableName first.name ≠ comparableName second.name := by
  constructor
  · intro hpairwise first hfirst second hsecond
    refine hpairwise.forall_of_forall_of_flip (fun _ _ hids ↦ absurd rfl hids) ?_ hfirst hsecond
    exact hpairwise.imp fun hdistinct hids ↦ (hdistinct hids.symm).symm
  · intro hdistinct
    exact List.pairwise_of_forall_mem_list hdistinct

/-- A review of a solution finds nothing exactly if the solution is well-formed. -/
theorem reviewSolution_eq_nil_iff (settings : Settings) (solution : Solution) :
    reviewSolution settings solution = [] ↔ solution.IsWellFormed settings.reservedWords := by
  rw [reviewSolution, List.append_eq_nil_iff, List.append_eq_nil_iff, reviewParameters_eq_nil_iff,
    reviewFormulas_eq_nil_iff, reviewReferences_eq_nil_iff, pairwise_comparableName_iff]
  simp only [syntaxFault_eq_none_iff]
  constructor
  · rintro ⟨⟨⟨hrequired, hdistinct, hvalued⟩, hformulas⟩, hselfless, hacyclic⟩
    exact {
      named := fun parameter hparameter ↦ (hrequired parameter hparameter).1
      measured := fun parameter hparameter ↦ (hrequired parameter hparameter).2
      distinct := hdistinct
      valued := hvalued
      written := fun calculation hcalculation ↦ (hformulas calculation hcalculation).1.1
      parsed := fun calculation hcalculation ↦ (hformulas calculation hcalculation).1.2
      resolved := fun calculation hcalculation ↦ (hformulas calculation hcalculation).2
      selfless := hselfless
      acyclic := hacyclic }
  · intro hformed
    refine ⟨⟨⟨fun parameter hparameter ↦ ?_, hformed.distinct, hformed.valued⟩,
      fun calculation hcalculation ↦ ?_⟩, hformed.selfless, hformed.acyclic⟩
    · exact ⟨hformed.named parameter hparameter, hformed.measured parameter hparameter⟩
    · exact ⟨⟨hformed.written calculation hcalculation, hformed.parsed calculation hcalculation⟩,
        hformed.resolved calculation hcalculation⟩

end Formulary
