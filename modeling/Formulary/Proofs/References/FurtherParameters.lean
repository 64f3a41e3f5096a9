import Formulary.Proofs.References.EvaluationOrder

/-!
# Further parameters

What a parameter is called is no reference to a calculation, so further parameters take references
away and add none, `Refers.of_append`. Orders of two relations, one of which implies the other, are
compared by their condensations: the stronger relation has no cycle that the weaker one lacks. The
main statement, `cyclic_append_subset`, is that further parameters put no calculation on a cycle and
merge no cycles, and that an order of all calculations does not get lost.
-/

set_option autoImplicit false
set_option relaxedAutoImplicit false

namespace Formulary

open Relation Formulary.Name

/-! ### References -/

/-- A formula that refers to a name by a word that is not taken does so where fewer words are. -/
theorem refersTo_of_subset {fewer taken : List String} (hfewer : fewer ⊆ taken)
    {formula name : String} (hrefers : refersTo taken formula name = true) :
    refersTo fewer formula name = true := by
  simp only [refersTo, Bool.and_eq_true, List.any_eq_true, Bool.not_eq_true',
    List.contains_eq_mem, decide_eq_false_iff_not] at hrefers ⊢
  obtain ⟨hname, word, halias, ⟨hword, hfree⟩, hcontains⟩ := hrefers
  exact ⟨hname, word, halias, ⟨hword, fun htaken ↦ hfree (hfewer htaken)⟩, hcontains⟩

/-- Further parameters add no references. -/
theorem Refers.of_append {parameters further : List Parameter} {calculations : List Calculation}
    {source target : Nat} (hrefers : Refers (parameters ++ further) calculations source target) :
    Refers parameters calculations source target := by
  obtain ⟨consumer, dependency, hsource, htarget, hrefers⟩ := hrefers
  refine ⟨consumer, dependency, hsource, htarget, refersTo_of_subset ?_ hrefers⟩
  rw [parameterWords, parameterWords, List.flatMap_append]
  exact List.subset_append_left _ _

/-! ### Condensations of two relations -/

section

variable {evaluation other : EvaluationOrder} {size : Nat} {refers implied : Nat → Nat → Prop}

/-- What lies on a cycle of a relation lies on one of a relation that it implies. -/
theorem EvaluationOrder.Condenses.cyclic_subset (hevaluation : evaluation.Condenses size refers)
    (hother : other.Condenses size implied)
    (himplies : ∀ source target, refers source target → implied source target) :
    evaluation.cyclic ⊆ other.cyclic := by
  intro position hposition
  rw [hother.mem_cyclic]
  exact TransGen.mono himplies _ _ ((hevaluation.mem_cyclic position).mp hposition)

/-- What shares a cycle of a relation shares one of a relation that it implies. -/
theorem EvaluationOrder.Condenses.exists_group (hevaluation : evaluation.Condenses size refers)
    (hother : other.Condenses size implied)
    (himplies : ∀ source target, refers source target → implied source target)
    {group : List Nat} (hgroup : group ∈ evaluation.cycles) {first second : Nat}
    (hfirst : first ∈ group) (hsecond : second ∈ group) :
    ∃ whole ∈ other.cycles, first ∈ whole ∧ second ∈ whole := by
  by_cases hsame : first = second
  · subst hsame
    have hcyclic : first ∈ other.cyclic := by
      refine hevaluation.cyclic_subset hother himplies ?_
      rw [evaluation.mem_cyclic_iff]
      exact List.mem_flatten.mpr ⟨group, hgroup, hfirst⟩
    rw [other.mem_cyclic_iff, List.mem_flatten] at hcyclic
    obtain ⟨whole, hwhole, hmember⟩ := hcyclic
    exact ⟨whole, hwhole, hmember, hmember⟩
  · obtain ⟨hthere, hback⟩ :=
      (hevaluation.mem_group first second hsame).mp ⟨group, hgroup, hfirst, hsecond⟩
    exact (hother.mem_group first second hsame).mpr
      ⟨TransGen.mono himplies _ _ hthere, TransGen.mono himplies _ _ hback⟩

/-- A relation has no cycles if one that it implies has none. -/
theorem EvaluationOrder.Condenses.cycles_eq_nil (hevaluation : evaluation.Condenses size refers)
    (hother : other.Condenses size implied)
    (himplies : ∀ source target, refers source target → implied source target)
    (hnone : other.cycles = []) : evaluation.cycles = [] := by
  rw [hother.cycles_eq_nil_iff] at hnone
  exact hevaluation.cycles_eq_nil_iff.mpr fun position hcyclic ↦
    hnone position (TransGen.mono himplies _ _ hcyclic)

end

/-! ### Cycles of calculations -/

/-- Further parameters put no calculation on a cycle: those that lie on one did so before, and those
that share one did so before. If there was an order of all calculations, there still is one. -/
theorem cyclic_append_subset (parameters further : List Parameter)
    (calculations : List Calculation) :
    (evaluationOrder (parameters ++ further) calculations).cyclic ⊆
        (evaluationOrder parameters calculations).cyclic ∧
      (∀ group ∈ (evaluationOrder (parameters ++ further) calculations).cycles,
        ∀ first ∈ group, ∀ second ∈ group,
          ∃ whole ∈ (evaluationOrder parameters calculations).cycles,
            first ∈ whole ∧ second ∈ whole) ∧
      ((∃ positions, calculationOrder parameters calculations = .ok positions) →
        ∃ positions, calculationOrder (parameters ++ further) calculations = .ok positions) := by
  have hbefore := condenses_evaluationOrder parameters calculations
  have hafter := condenses_evaluationOrder (parameters ++ further) calculations
  have himplies : ∀ source target, Refers (parameters ++ further) calculations source target →
      Refers parameters calculations source target := fun _ _ ↦ Refers.of_append
  refine ⟨hafter.cyclic_subset hbefore himplies, fun group hgroup first hfirst second hsecond ↦
    hafter.exists_group hbefore himplies hgroup hfirst hsecond, ?_⟩
  rintro ⟨positions, horder⟩
  obtain ⟨hnone, -⟩ := (calculationOrder_eq_ok_iff parameters calculations positions).mp horder
  exact ⟨_, (calculationOrder_eq_ok_iff _ calculations _).mpr
    ⟨hafter.cycles_eq_nil hbefore himplies hnone, rfl⟩⟩

/-- A parameter that takes the name of a calculation away resolves a circle. -/
example :
    let circle : List Calculation :=
      [{ id := "a", name := "Net", formula := "Gross - Tax" },
        { id := "b", name := "Gross", formula := "Net + Tax" }]
    (evaluationOrder [{ id := "1", name := "Tax" }] circle).cyclic = [0, 1] ∧
      (evaluationOrder ([{ id := "1", name := "Tax" }] ++ [{ id := "2", name := "Net" }])
        circle).cyclic = [] := by
  decide +kernel

end Formulary
