import Formulary.Proofs.References.EvaluationOrder
import Formulary.Proofs.Review.ReportedNames
import Formulary.Proofs.Substitution.WholeWords

/-!
# What the rules of a review ask

A review has no findings where none of its rules finds a fault. Each rule is described here by what
it asks of a record: `parameterFaults_eq_nil_iff` for a parameter among those before it,
`reviewFormula_eq_nil_iff` for the formula of a calculation, `reviewReferences_eq_nil_iff` for the
references between calculations. A rule that is skipped where an earlier one finds a fault asks
nothing less for it, since one finding is enough.
-/

set_option autoImplicit false
set_option relaxedAutoImplicit false

namespace Formulary

open Formulary.Formula Formulary.Name Formulary.Text Relation

variable {parameter : Parameter} {parameters existing : List Parameter}

/-! ### Texts and quantities -/

/-- A text is there and not blank. -/
def IsGivenText (text : Option String) : Prop :=
  ∃ given, text = some given ∧ isBlank given.toList = false

/-- A quantity is there and not blank. -/
def IsGivenQuantity (quantity : Option Quantity) : Prop :=
  ∃ given, quantity = some given ∧ given.isBlank = false

theorem isMissingText_eq_false_iff (text : Option String) :
    isMissingText text = false ↔ IsGivenText text := by
  cases text <;> simp [isMissingText, IsGivenText]

theorem isMissingQuantity_eq_false_iff (quantity : Option Quantity) :
    isMissingQuantity quantity = false ↔ IsGivenQuantity quantity := by
  cases quantity <;> simp [isMissingQuantity, IsGivenQuantity]

/-- Trimming leaves something of each text but the blank ones. -/
theorem trimmedText_eq (text : String) : trimmedText text =
    if isBlank text.toList = true then none else some (String.ofList (trim text.toList)) := by
  simp only [trimmedText, isBlank_iff_trim_eq_nil, List.isEmpty_iff]

theorem formulaText_of_isBlank_eq_false {calculation : Calculation}
    (hformula : isBlank calculation.formula.toList = false) :
    calculation.formulaText = some (String.ofList (trim calculation.formula.toList)) := by
  rw [Calculation.formulaText, trimmedText_eq, if_neg (by simp [hformula])]

/-! ### Parameters -/

/-- The value that the display of a parameter needs: a value of its own, two bounds, or options. -/
def Parameter.HasDisplayedValue (parameter : Parameter) : Prop :=
  match parameter.display with
  | .simple => IsGivenQuantity parameter.value
  | .range => IsGivenQuantity parameter.rangeMin ∧ IsGivenQuantity parameter.rangeMax
  | .dropdown => parameter.options ≠ []
  | .filter => parameter.options ≠ []
  | .conditional => True

theorem requiredFault_eq_none_iff : requiredFault parameter = none ↔
    isBlankName parameter.name = false ∧ IsGivenText parameter.unit := by
  rw [requiredFault, ite_eq_right_iff, ← isMissingText_eq_false_iff]
  simp

/-- A name that is not blank has letters to compare. -/
theorem comparableName_ne_nil {name : String} (hname : isBlankName name = false) :
    comparableName name ≠ [] := by
  rw [comparableName, Ne, lower_eq_nil_iff, ← isBlank_iff_trim_eq_nil]
  exact Bool.eq_false_iff.mp hname

theorem duplicateFault_eq_none_iff (hname : isBlankName parameter.name = false) :
    duplicateFault existing parameter = none ↔ ∀ other ∈ existing, other.id ≠ parameter.id →
      comparableName other.name ≠ comparableName parameter.name := by
  have hwanted : (comparableName parameter.name).isEmpty = false := by
    simpa using comparableName_ne_nil hname
  simp [duplicateFault, hwanted]

theorem fixedValueFault_eq_none_iff : fixedValueFault parameter = none ↔
    (parameter.access = .fixed → parameter.HasDisplayedValue) := by
  rw [fixedValueFault, Parameter.HasDisplayedValue]
  by_cases haccess : parameter.access = .fixed
  · rw [if_pos haccess]
    cases parameter.display <;>
      simp [haccess, ← isMissingQuantity_eq_false_iff]
  · simp [haccess]

/-- What a parameter is asked for among those before it. -/
theorem parameterFaults_eq_nil_iff : parameterFaults existing parameter = [] ↔
    (isBlankName parameter.name = false ∧ IsGivenText parameter.unit) ∧
      (∀ other ∈ existing, other.id ≠ parameter.id →
        comparableName other.name ≠ comparableName parameter.name) ∧
      (parameter.access = .fixed → parameter.HasDisplayedValue) := by
  rw [← requiredFault_eq_none_iff, ← fixedValueFault_eq_none_iff]
  have hfaults : parameterFaults existing parameter = [] ↔ requiredFault parameter = none ∧
      duplicateFault existing parameter = none ∧ fixedValueFault parameter = none := by
    simp [parameterFaults]
  rw [hfaults]
  exact and_congr_right fun hrequired ↦ and_congr_left fun _ ↦
    duplicateFault_eq_none_iff (requiredFault_eq_none_iff.mp hrequired).1

/-- What the parameters of a solution are asked for. -/
theorem reviewParameters_eq_nil_iff : reviewParameters parameters = [] ↔
    (∀ parameter ∈ parameters, isBlankName parameter.name = false ∧ IsGivenText parameter.unit) ∧
      (parameters.Pairwise fun earlier later ↦ earlier.id ≠ later.id →
        comparableName earlier.name ≠ comparableName later.name) ∧
      ∀ parameter ∈ parameters, parameter.access = .fixed → parameter.HasDisplayedValue := by
  have hreview : reviewParameters parameters = [] ↔ ∀ (position : Nat)
      (hposition : position < parameters.length),
      parameterFaults (parameters.take position) parameters[position] = [] := by
    simp only [reviewParameters, reviewParameter, List.flatten_eq_nil_iff, List.mem_mapIdx]
    constructor
    · intro hnone position hposition
      exact List.map_eq_nil_iff.mp (hnone _ ⟨position, hposition, rfl⟩)
    · rintro hnone _ ⟨position, hposition, rfl⟩
      exact List.map_eq_nil_iff.mpr (hnone position hposition)
  simp only [hreview, parameterFaults_eq_nil_iff, forall_and, List.forall_mem_iff_getElem,
    List.pairwise_iff_getElem, List.getElem_take]
  refine and_congr_right fun _ ↦ and_congr_left fun _ ↦ ?_
  constructor
  · intro hunique first second _ hsecond hless
    exact hunique second hsecond first (by rw [List.length_take]; omega)
  · intro hunique second hsecond first hfirst
    rw [List.length_take] at hfirst
    exact hunique first second (by omega) hsecond (by omega)

/-! ### Formulas -/

variable {settings : Settings} {solution : Solution} {calculation : Calculation}
  {naming : Substitution} {reserved : List String}

/-- A formula can be parsed when the names in it are replaced. -/
theorem syntaxFault_eq_none_iff : syntaxFault naming calculation = none ↔
    isBlank calculation.formula.toList = false ∧ ∃ tree,
      parse (naming.replace (trim calculation.formula.toList)) = .ok tree := by
  rw [syntaxFault, Calculation.formulaText, trimmedText_eq]
  cases isBlank calculation.formula.toList with
  | true => simp
  | false =>
    simp only [Bool.false_eq_true, if_false, String.toList_ofList]
    cases parse (naming.replace (trim calculation.formula.toList)) <;> simp

theorem reviewNames_eq_nil_iff : reviewNames reserved solution calculation = [] ↔
    ∀ token ∈ candidates calculation.formula reserved, solution.Names token := by
  rw [reviewNames_eq, List.map_eq_nil_iff]
  simp only [← isResolved_iff, List.eq_nil_iff_forall_not_mem, List.mem_eraseDups,
    List.mem_filter, Bool.not_eq_true', not_and, Bool.not_eq_false]

/-- What the formula of a calculation is asked for. -/
theorem reviewFormula_eq_nil_iff : reviewFormula reserved solution naming calculation = [] ↔
    syntaxFault naming calculation = none ∧
      ∀ token ∈ candidates calculation.formula reserved, solution.Names token := by
  rw [reviewFormula, ← reviewNames_eq_nil_iff]
  cases syntaxFault naming calculation <;> simp

theorem reviewFormulas_eq_nil_iff : reviewFormulas reserved solution = [] ↔
    ∀ calculation ∈ solution.calculations,
      syntaxFault (solution.registry reserved).substitution calculation = none ∧
        ∀ token ∈ candidates calculation.formula reserved, solution.Names token := by
  simp only [reviewFormulas, List.flatMap_eq_nil_iff, reviewFormula_eq_nil_iff]

/-! ### References -/

/-- A formula mentions itself by one of the words for that. -/
def MentionsItself (formula : String) : Prop :=
  StandsAloneIn "self".toList formula.toList ∨ StandsAloneIn "this".toList formula.toList

theorem mentionsItself_iff (formula : String) :
    containsWord formula "self" = true ∨ containsWord formula "this" = true ↔
      MentionsItself formula :=
  or_congr (containsWord_iff_of_isBorderless (by decide) (by decide))
    (containsWord_iff_of_isBorderless (by decide) (by decide))

theorem reviewSelfWords_eq_nil_iff (calculations : List Calculation) :
    reviewSelfWords calculations = [] ↔
      ∀ calculation ∈ calculations, ¬MentionsItself calculation.formula := by
  simp only [reviewSelfWords, List.map_eq_nil_iff, List.filter_eq_nil_iff, Bool.or_eq_true,
    mentionsItself_iff]

/-- Every cycle is found fault with. -/
theorem cycleFindings_ne_nil {calculations : List Calculation} {cycle : List Nat}
    (hcycle : ∃ position ∈ cycle, position < calculations.length) :
    cycleFindings calculations cycle ≠ [] := by
  obtain ⟨position, hposition, hlength⟩ := hcycle
  have hmember : calculations[position] ∈
      cycle.filterMap fun position ↦ calculations[position]? :=
    List.mem_filterMap.mpr ⟨position, hposition, List.getElem?_eq_getElem hlength⟩
  rw [cycleFindings]
  split
  · exact List.cons_ne_nil _ _
  · rw [Ne, List.map_eq_nil_iff]
    exact List.ne_nil_of_mem hmember

/-- What the references between calculations are asked for. -/
theorem reviewReferences_eq_nil_iff : reviewReferences solution = [] ↔
    (∀ calculation ∈ solution.calculations, ¬MentionsItself calculation.formula) ∧
      ∀ position, ¬TransGen (Refers solution.parameters solution.calculations) position
        position := by
  have hcondenses := condenses_evaluationOrder solution.parameters solution.calculations
  rw [reviewReferences, List.append_eq_nil_iff, reviewSelfWords_eq_nil_iff,
    ← hcondenses.cycles_eq_nil_iff, List.flatMap_eq_nil_iff]
  refine and_congr_right fun _ ↦ ⟨fun hfindings ↦ ?_, fun hnone cycle hcycle ↦ ?_⟩
  · refine List.eq_nil_iff_forall_not_mem.mpr fun cycle hcycle ↦ ?_
    obtain ⟨position, hposition⟩ := List.exists_mem_of_ne_nil _ (hcondenses.nonempty cycle hcycle)
    have hinside : position ∈ List.range solution.calculations.length :=
      hcondenses.complete.mem_iff.mp
        (List.mem_append_right _ (List.mem_flatten.mpr ⟨cycle, hcycle, hposition⟩))
    exact cycleFindings_ne_nil ⟨position, hposition, List.mem_range.mp hinside⟩
      (hfindings cycle hcycle)
  · rw [hnone] at hcycle
    cases hcycle

end Formulary
