import Formulary.Proofs.Request.BuiltRequest
import Formulary.Proofs.Review.Rules

/-!
# Requests for one calculation

A candidate joins the solution only if its identity is new, and the request for it has its
identifier as the only target in any case. So the request has a node that computes the candidate if
its identity is new, or if the solution computes the same formula under the same identifier, which
is `exists_candidate_node`. Where the identity is taken, the request says what the solution says
about it, however the candidate was changed since: `raised` is computed by its old formula.
-/

set_option autoImplicit false
set_option relaxedAutoImplicit false

namespace Formulary

open Formulary.Name Formulary.Text

variable {settings : Settings} {solution : Solution} {candidate : Calculation}

/-! ### Candidates -/

/-- Whether a calculation of a solution has the identity of a candidate. -/
def Solution.Knows (solution : Solution) (candidate : Calculation) : Prop :=
  ∃ calculation ∈ solution.calculations, calculation.id = candidate.id

instance : Decidable (solution.Knows candidate) :=
  inferInstanceAs (Decidable (∃ calculation ∈ solution.calculations, _))

/-- Whether a calculation of a solution has the identifier and the formula of a candidate. -/
def Solution.Computes (solution : Solution) (candidate : Calculation) : Prop :=
  ∃ calculation ∈ solution.calculations, identifier calculation.name = identifier candidate.name ∧
    calculation.formulaText = candidate.formulaText

instance : Decidable (solution.Computes candidate) :=
  inferInstanceAs (Decidable (∃ calculation ∈ solution.calculations, _))

theorem any_id_eq_true_iff : (solution.calculations.any fun calculation ↦
    calculation.id == candidate.id) = true ↔ solution.Knows candidate := by
  simp only [List.any_eq_true, beq_iff_eq, Solution.Knows]

theorem withCandidate_of_knows (hknown : solution.Knows candidate) :
    solution.withCandidate candidate = solution :=
  if_pos (any_id_eq_true_iff.mpr hknown)

/-- A candidate of a new identity is computed by the solution that it joins. -/
theorem computes_withCandidate_of_not_knows (hnew : ¬solution.Knows candidate) :
    (solution.withCandidate candidate).Computes candidate := by
  rw [Solution.withCandidate, if_neg (mt any_id_eq_true_iff.mp hnew)]
  exact ⟨candidate, List.mem_append_right _ List.mem_cons_self, rfl, rfl⟩

/-! ### Requests -/

theorem buildForTarget_of_ne_refuse (hpolicy : settings.collisionPolicy ≠ .refuse)
    (solution : Solution) (overrides : Overrides) (candidate : Calculation) :
    (buildForTarget settings solution overrides candidate).result =
      .ok { requestOf settings (solution.withCandidate candidate) overrides with
        target := [identifier candidate.name] } := by
  rw [buildForTarget, built_of_ne_refuse hpolicy]

/-- A solution that computes a candidate with a formula has a node for it in its request. -/
theorem exists_node_of_computes (hcomputes : solution.Computes candidate)
    (hformula : isBlank candidate.formula.toList = false) (settings : Settings)
    (overrides : Overrides) :
    ∃ node ∈ (requestOf settings solution overrides).nodes, node.kind = .calculation ∧
      node.name = identifier candidate.name ∧
        node.formula = some ((solution.registry settings.reservedWords).substitution.apply
          (String.ofList (trim candidate.formula.toList))) := by
  obtain ⟨calculation, hcalculation, hname, htext⟩ := hcomputes
  have hgiven := htext.trans (formulaText_of_isBlank_eq_false hformula)
  exact ⟨_, calculationNode_mem_nodes hcalculation hgiven, rfl, hname, rfl⟩

/-- The request for a candidate with a formula has the candidate as its only target. It has a node
that computes the candidate if the identity of the candidate is new or the solution computes it, and
the nodes of the solution if the identity is taken. -/
theorem exists_candidate_node (hpolicy : settings.collisionPolicy ≠ .refuse)
    (hformula : isBlank candidate.formula.toList = false) (solution : Solution)
    (overrides : Overrides) :
    ∃ request, (buildForTarget settings solution overrides candidate).result = .ok request ∧
      request.target = [identifier candidate.name] ∧
      (solution.Knows candidate →
        request.nodes = (requestOf settings solution overrides).nodes) ∧
      (¬solution.Knows candidate ∨ solution.Computes candidate →
        ∃ node ∈ request.nodes, node.kind = .calculation ∧ node.name = identifier candidate.name ∧
          node.formula = some
            (((solution.withCandidate candidate).registry settings.reservedWords).substitution.apply
              (String.ofList (trim candidate.formula.toList)))) := by
  refine ⟨_, buildForTarget_of_ne_refuse hpolicy solution overrides candidate, rfl, fun hknown ↦ ?_,
    fun hcondition ↦ exists_node_of_computes ?_ hformula settings overrides⟩
  · rw [withCandidate_of_knows hknown]
  · by_cases hknown : solution.Knows candidate
    · rw [withCandidate_of_knows hknown]
      exact hcondition.resolve_left (not_not_intro hknown)
    · exact computes_withCandidate_of_not_knows hknown

/-- A price and the total of two. -/
def pair : Solution where
  parameters := [{ id := "1", name := "Unit Price" }]
  calculations := [{ id := "total", name := "Total", formula := "Unit Price * 2" }]

/-- The total of three, new beside the total of two. -/
def added : Calculation :=
  { id := "added", name := " Total ", formula := " Unit Price * 3 " }

/-- The total of three, in place of the total of two. -/
def raised : Calculation :=
  { id := "total", name := "Total", formula := "Unit Price * 3" }

/-- The request for the added total computes it, though its name is taken. -/
theorem exists_added_node :
    ¬pair.Knows added ∧ ∃ request, (buildForTarget .standard pair [] added).result = .ok request ∧
      request.target = ["Total"] ∧
        ∃ node ∈ request.nodes, node.kind = .calculation ∧ node.name = "Total" ∧
          node.formula = some "Unit_Price * 3" := by
  have hpolicy : Settings.standard.collisionPolicy ≠ .refuse := by decide
  have hformula : isBlank added.formula.toList = false := by decide +kernel
  have hnew : ¬pair.Knows added := by decide +kernel
  have hname : identifier added.name = "Total" := by decide +kernel
  have hwritten : ((pair.withCandidate added).registry
      Settings.standard.reservedWords).substitution.apply
        (String.ofList (trim added.formula.toList)) = "Unit_Price * 3" := by decide +kernel
  obtain ⟨request, hrequest, htarget, -, hnode⟩ := exists_candidate_node hpolicy hformula pair []
  rw [hname] at htarget
  rw [hname, hwritten] at hnode
  exact ⟨hnew, request, hrequest, htarget, hnode (Or.inl hnew)⟩

/-- The request for the raised total does not compute it. -/
theorem no_raised_node :
    isBlank raised.formula.toList = false ∧
      ∃ request, (buildForTarget .standard pair [] raised).result = .ok request ∧
        ∀ node ∈ request.nodes, node.kind = .calculation → node.name = identifier raised.name →
          node.formula ≠ some
            (((pair.withCandidate raised).registry
              Settings.standard.reservedWords).substitution.apply
                (String.ofList (trim raised.formula.toList))) :=
  ⟨by decide +kernel, { requestOf .standard pair [] with target := ["Total"] }, by decide +kernel,
    by decide +kernel⟩

end Formulary
