import Formulary.Proofs.Recalculation.FixedPoint

/-!
# Recalculation and the order of the list

Which place a calculation has in the list does not matter for its result, as long as the words of
the solution are apart: `outcome_eq_of_perm`, and `recalculate_eq_of_perm` for the recalculated
calculations. References go along with the calculations, so the same ones lie on cycles. By
induction along the evaluation order, the others are evaluated with ledgers that agree on the words
in their formulas.

A parameter without a value must not have the name of a calculation: it hides the calculation from
the references but not from the ledger, and so the order of the list decides who sees the result.
-/

set_option autoImplicit false
set_option relaxedAutoImplicit false

namespace Formulary

open Formulary.Name Formulary.Number Formulary.Text Relation

variable {settings : Settings} {parameters : List Parameter} {calculations permuted :
  List Calculation} {overrides : Overrides} {first second : Nat} {calculation : Calculation}

/-! ### The same calculations in another order -/

/-- Words stay apart when the list is put into another order. -/
theorem Solution.WordsApart.perm
    (hapart : (Solution.mk parameters calculations).WordsApart overrides)
    (hperm : calculations.Perm permuted) :
    (Solution.mk parameters permuted).WordsApart overrides where
  formulas calculation hcalculation :=
    hapart.formulas calculation (hperm.mem_iff.mpr hcalculation)
  parameters := hapart.parameters
  calculations calculation hcalculation :=
    hapart.calculations calculation (hperm.mem_iff.mpr hcalculation)
  apart := by
    refine (hperm.pairwise_iff ?_).mp hapart.apart
    exact fun hwords word hword hshared ↦ hwords word hshared hword
  valued parameter hparameter calculation hcalculation :=
    hapart.valued parameter hparameter calculation (hperm.mem_iff.mpr hcalculation)

theorem exists_place (hperm : calculations.Perm permuted)
    (hfirst : calculations[first]? = some calculation) :
    ∃ place : Nat, permuted[place]? = some calculation :=
  List.getElem?_of_mem (hperm.mem_iff.mp (List.mem_of_getElem? hfirst))

/-- References lead to the same calculations in both orders. -/
theorem exists_transGen_of_perm (hperm : calculations.Perm permuted)
    (hfirst : calculations[first]? = some calculation)
    (hsecond : permuted[second]? = some calculation) {target : Nat}
    (hleads : TransGen (Refers parameters calculations) first target) :
    ∃ place dependency, calculations[target]? = some dependency ∧
      permuted[place]? = some dependency ∧
        TransGen (Refers parameters permuted) second place := by
  induction hleads with
  | single hrefers =>
    obtain ⟨consumer, dependency, hconsumer, hdependency, hrefers⟩ := hrefers
    obtain rfl := Option.some.inj (hfirst.symm.trans hconsumer)
    obtain ⟨place, hplace⟩ := exists_place hperm hdependency
    exact ⟨place, dependency, hdependency, hplace,
      .single ⟨_, dependency, hsecond, hplace, hrefers⟩⟩
  | tail _ hrefers ih =>
    obtain ⟨between, middle, hmiddle, hbetween, hleads⟩ := ih
    obtain ⟨consumer, dependency, hconsumer, hdependency, hrefers⟩ := hrefers
    obtain rfl := Option.some.inj (hmiddle.symm.trans hconsumer)
    obtain ⟨place, hplace⟩ := exists_place hperm hdependency
    exact ⟨place, dependency, hdependency, hplace,
      hleads.tail ⟨_, dependency, hbetween, hplace, hrefers⟩⟩

variable (hapart : (Solution.mk parameters calculations).WordsApart overrides)

include hapart

/-- What lies on a cycle in one order does so in the other. -/
theorem transGen_of_perm (hperm : calculations.Perm permuted)
    (hfirst : calculations[first]? = some calculation)
    (hsecond : permuted[second]? = some calculation)
    (hcycle : TransGen (Refers parameters calculations) first first) :
    TransGen (Refers parameters permuted) second second := by
  obtain ⟨place, dependency, hdependency, hplace, hleads⟩ :=
    exists_transGen_of_perm hperm hfirst hsecond hcycle
  obtain rfl := Option.some.inj (hfirst.symm.trans hdependency)
  have hsame : place = second := position_eq_of_mem_aliases (hapart.perm hperm) hplace hsecond
    (List.mem_cons_self (a := calculation.name)) List.mem_cons_self
  rwa [hsame] at hleads

/-- The same calculations are evaluated in both orders. -/
theorem mem_order_of_perm (hperm : calculations.Perm permuted)
    (hfirst : calculations[first]? = some calculation)
    (hsecond : permuted[second]? = some calculation)
    (hevaluated : first ∈ (evaluationOrder parameters calculations).order) :
    second ∈ (evaluationOrder parameters permuted).order := by
  rw [(condenses_evaluationOrder parameters _).mem_order_iff] at hevaluated ⊢
  refine ⟨(List.getElem?_eq_some_iff.mp hsecond).1, fun hcycle ↦ hevaluated.2 ?_⟩
  exact transGen_of_perm (hapart.perm hperm) hperm.symm hsecond hfirst hcycle

/-! ### What the ledger of all results knows -/

variable {found : Nat → Option Float} {position : Nat} {key : String}

/-- The ledger of all results knows a word of a calculation from the result of that one, unless a
parameter answers to the word. -/
theorem get?_allResults
    (hfinite : ∀ position value, found position = some value → value.isFinite = true)
    (hcalculation : calculations[position]? = some calculation)
    (hanswers : Ledger.Answers calculation.name key)
    (hfree : (Ledger.ofParameters parameters overrides).isParameterKey key = false) :
    ((Ledger.ofParameters parameters overrides).withResults
      (resultsAt calculations found (List.range calculations.length))).get? key =
        found position := by
  have hresults := @isFinite_of_mem_resultsAt calculations found
    (List.range calculations.length) hfinite
  have hplace : position ∈ List.range calculations.length :=
    List.mem_range.mpr (List.getElem?_eq_some_iff.mp hcalculation).1
  cases hfound : found position with
  | some value =>
    have hresult : (calculation.name, value) ∈
        resultsAt calculations found (List.range calculations.length) :=
      mem_resultsAt.mpr ⟨position, hplace, calculation, hcalculation, rfl, hfound⟩
    rw [Ledger.get?_withResults hresults hfree fun other hother ↦
      value_eq_of_answers hapart hresult hother hanswers, if_pos ⟨_, hresult, hanswers⟩]
  | none =>
    rw [Ledger.get?_withResults_of_unanswered hresults]
    · refine Option.eq_none_iff_forall_ne_some.mpr fun value hvalue ↦ ?_
      exact Bool.false_ne_true (hfree.symm.trans (Ledger.get?_ofParameters hvalue).1)
    · intro result hresult hother
      obtain ⟨other, _, dependency, hdependency, hname, hvalue⟩ := mem_resultsAt.mp hresult
      rw [hname] at hother
      obtain rfl := position_eq_of_mem_aliases hapart hcalculation hdependency hanswers.1 hother.1
      rw [hfound] at hvalue
      cases hvalue

omit hapart in
/-- The ledger of all results knows a word that no calculation answers to as before. -/
theorem get?_allResults_of_unanswered
    (hfinite : ∀ position value, found position = some value → value.isFinite = true)
    (hnone : ∀ calculation ∈ calculations, ¬Ledger.Answers calculation.name key) :
    ((Ledger.ofParameters parameters overrides).withResults
      (resultsAt calculations found (List.range calculations.length))).get? key =
        (Ledger.ofParameters parameters overrides).get? key := by
  refine Ledger.get?_withResults_of_unanswered (isFinite_of_mem_resultsAt hfinite)
    fun result hresult hanswers ↦ ?_
  obtain ⟨_, _, calculation, hcalculation, hname, _⟩ := mem_resultsAt.mp hresult
  rw [hname] at hanswers
  exact hnone calculation (List.mem_of_getElem? hcalculation) hanswers

/-- The ledgers of all results in both orders give a formula the same value if they have the same
results for what the formula refers to. -/
theorem evaluateIn_eq_of_perm (hperm : calculations.Perm permuted) {other : Nat → Option Float}
    (hfinite : ∀ position value, found position = some value → value.isFinite = true)
    (hotherFinite : ∀ position value, other position = some value → value.isFinite = true)
    (hfirst : calculations[first]? = some calculation)
    (hsame : ∀ target place dependency, calculations[target]? = some dependency →
      permuted[place]? = some dependency → Refers parameters calculations first target →
        found target = other place) (settings : Settings) :
    evaluateIn settings ((Ledger.ofParameters parameters overrides).withResults
        (resultsAt calculations found (List.range calculations.length))) calculation.formula =
      evaluateIn settings ((Ledger.ofParameters parameters overrides).withResults
        (resultsAt permuted other (List.range permuted.length))) calculation.formula := by
  have hotherApart := hapart.perm hperm
  have hmember := List.mem_of_getElem? hfirst
  refine evaluateIn_congr (hasPlainWords_withResults hapart hfinite)
    (hasPlainWords_withResults hotherApart hotherFinite) (hapart.formulas calculation hmember)
    (fun key hstands ↦ ?_) (fun key hdiffer ↦ ?_) settings
  · by_cases hparameter : (Ledger.ofParameters parameters overrides).isParameterKey key = true
    · rw [Ledger.get?_withResults_of_isParameterKey (isFinite_of_mem_resultsAt hfinite) hparameter,
        Ledger.get?_withResults_of_isParameterKey (isFinite_of_mem_resultsAt hotherFinite)
          hparameter]
    · have hfree := Bool.eq_false_iff.mpr hparameter
      by_cases hanswered : ∃ dependency ∈ calculations, Ledger.Answers dependency.name key
      · obtain ⟨dependency, hdependency, hanswers⟩ := hanswered
        obtain ⟨target, htarget⟩ := List.getElem?_of_mem hdependency
        obtain ⟨place, hplace⟩ := exists_place hperm htarget
        have hrefers := refersTo_of_standsIn hapart hmember hdependency hanswers hfree hstands
        rw [get?_allResults hapart hfinite htarget hanswers hfree,
          get?_allResults hotherApart hotherFinite hplace hanswers hfree]
        exact hsame target place dependency htarget hplace
          ⟨calculation, dependency, hfirst, htarget, hrefers⟩
      · have hnone : ∀ dependency ∈ calculations, ¬Ledger.Answers dependency.name key :=
          fun dependency hdependency hanswers ↦ hanswered ⟨dependency, hdependency, hanswers⟩
        rw [get?_allResults_of_unanswered hfinite hnone,
          get?_allResults_of_unanswered hotherFinite fun dependency hdependency ↦
            hnone dependency (hperm.mem_iff.mpr hdependency)]
  · by_cases hanswered : ∃ dependency ∈ calculations, Ledger.Answers dependency.name key
    · obtain ⟨dependency, hdependency, hanswers⟩ := hanswered
      exact starts_name_of_answers hapart hdependency hanswers
    · have hnone : ∀ dependency ∈ calculations, ¬Ledger.Answers dependency.name key :=
        fun dependency hdependency hanswers ↦ hanswered ⟨dependency, hdependency, hanswers⟩
      refine absurd ?_ hdiffer
      rw [get?_allResults_of_unanswered hfinite hnone,
        get?_allResults_of_unanswered hotherFinite fun dependency hdependency ↦
          hnone dependency (hperm.mem_iff.mpr hdependency)]

/-! ### The same outcomes -/

omit hapart in
/-- The outcome at a position of a recalculation. -/
def recalculatedOutcome (settings : Settings) (parameters : List Parameter)
    (calculations : List Calculation) (overrides : Overrides) (position : Nat) : Outcome :=
  (runCalculations settings calculations (Ledger.ofParameters parameters overrides)
    (evaluationOrder parameters calculations).order).outcome position

/-- A calculation has the same outcome in both orders. -/
theorem outcome_eq_of_perm (hperm : calculations.Perm permuted)
    (hfirst : calculations[first]? = some calculation)
    (hsecond : permuted[second]? = some calculation) :
    recalculatedOutcome settings parameters calculations overrides first =
      recalculatedOutcome settings parameters permuted overrides second := by
  -- induction on how early the calculation comes in the first evaluation order
  induction hindex : (evaluationOrder parameters calculations).order.idxOf first using
    Nat.strongRecOn generalizing first second calculation with
  | _ index ih =>
    subst hindex
    by_cases hevaluated : first ∈ (evaluationOrder parameters calculations).order
    · have hotherEvaluated := mem_order_of_perm hapart hperm hfirst hsecond hevaluated
      have htargets : ∀ target place dependency, calculations[target]? = some dependency →
          permuted[place]? = some dependency → Refers parameters calculations first target →
            recalculatedOutcome settings parameters calculations overrides target =
              recalculatedOutcome settings parameters permuted overrides place := by
        intro target place dependency htarget hplace hrefers
        by_cases hbefore : target ∈ (evaluationOrder parameters calculations).order
        · have hearlier := (condenses_evaluationOrder parameters calculations).before first
            hevaluated target hbefore hrefers
          exact ih _ hearlier htarget hplace rfl
        · have hotherBefore : place ∉ (evaluationOrder parameters permuted).order :=
            fun hmember ↦ hbefore
              (mem_order_of_perm (hapart.perm hperm) hperm.symm hplace htarget hmember)
          rw [recalculatedOutcome, recalculatedOutcome, outcome_of_not_mem hbefore,
            outcome_of_not_mem hotherBefore]
      rw [recalculatedOutcome, recalculatedOutcome, outcome_of_wordsApart hapart hfirst hevaluated,
        outcome_of_wordsApart (hapart.perm hperm) hsecond hotherEvaluated, preview, preview,
        ofSolution_recalculate, ofSolution_recalculate]
      congr 1
      refine evaluateIn_eq_of_perm hapart hperm (fun _ _ ↦ isFinite_of_foundBy)
        (fun _ _ ↦ isFinite_of_foundBy) hfirst (fun target place dependency htarget hplace hrefers ↦
          ?_) settings
      rw [← number?_outcome, ← number?_outcome]
      exact congrArg Outcome.number? (htargets target place dependency htarget hplace hrefers)
    · have hotherEvaluated : second ∉ (evaluationOrder parameters permuted).order :=
        fun hmember ↦ hevaluated
          (mem_order_of_perm (hapart.perm hperm) hperm.symm hsecond hfirst hmember)
      rw [recalculatedOutcome, recalculatedOutcome, outcome_of_not_mem hevaluated,
        outcome_of_not_mem hotherEvaluated]

/-! ### Plain names -/

omit hapart

/-- A solution with plain names whose parameters are known by their names only: formulas are ASCII,
names are plain, no identity of a parameter starts like a word, no name of a calculation has a
border, and no two calculations share a word. -/
structure Solution.IsNamedPlainly (solution : Solution) : Prop where
  formulas : ∀ calculation ∈ solution.calculations,
    ∀ character ∈ calculation.formula.toList, character.toNat < 128
  parameters : ∀ parameter ∈ solution.parameters, isPlainName parameter.name.toList = true
  identities : ∀ parameter ∈ solution.parameters,
    parameter.id.toList.head?.any isNameStart = false
  calculations : ∀ calculation ∈ solution.calculations,
    isPlainName calculation.name.toList = true ∧ isBorderless calculation.name.toList = true
  apart : solution.calculations.Pairwise fun first second ↦
    ∀ word ∈ aliases first.name, word ∉ aliases second.name

/-- Plain names of this kind keep the words of a solution apart, if each parameter that takes a word
from a calculation has a value. -/
theorem Solution.IsNamedPlainly.wordsApart {solution : Solution} (hplain : solution.IsNamedPlainly)
    (hvalued : ∀ parameter ∈ solution.parameters, ∀ calculation ∈ solution.calculations,
      parameter.name ∈ aliases calculation.name ∨
        identifier parameter.name ∈ aliases calculation.name →
      (Ledger.parameterValue overrides parameter).isSome = true) :
    solution.WordsApart overrides where
  formulas := hplain.formulas
  parameters parameter hparameter key hkey _ := by
    rw [Ledger.parameterKeys, hplain.identities parameter hparameter,
      if_neg Bool.false_ne_true, List.append_nil] at hkey
    simp only [List.mem_cons, List.not_mem_nil, or_false] at hkey
    refine (plainAlias_of_mem_aliases (hplain.parameters parameter hparameter) ?_).edges
    simp [aliases, ← or_assoc, hkey]
  calculations := hplain.calculations
  apart := hplain.apart
  valued := hvalued

/-- In a solution with plain names of which each parameter has a value that takes a word from a
calculation, a calculation is recalculated alike wherever it stands in the list. -/
theorem recalculate_eq_of_perm
    (hplain : (Solution.mk parameters calculations).IsNamedPlainly)
    (hvalued : ∀ parameter ∈ parameters, ∀ calculation ∈ calculations,
      parameter.name ∈ aliases calculation.name ∨
        identifier parameter.name ∈ aliases calculation.name →
      (Ledger.parameterValue overrides parameter).isSome = true)
    (hperm : calculations.Perm permuted) (hsame : calculations[first]? = permuted[second]?)
    (settings : Settings) :
    (recalculate settings ⟨parameters, calculations⟩ overrides).calculations[first]? =
      (recalculate settings ⟨parameters, permuted⟩ overrides).calculations[second]? := by
  have hplaces (others : List Calculation) (position : Nat) :
      (recalculate settings ⟨parameters, others⟩ overrides).calculations[position]? =
        others[position]?.map fun calculation ↦ calculation.withOutcome
          (recalculatedOutcome settings parameters others overrides position) :=
    List.getElem?_mapIdx
  rw [hplaces, hplaces, ← hsame]
  cases hfirst : calculations[first]? with
  | none => rw [Option.map_none, Option.map_none]
  | some calculation =>
    have hsecond : permuted[second]? = some calculation := hsame.symm.trans hfirst
    rw [outcome_eq_of_perm (hplain.wordsApart hvalued) hperm hfirst hsecond]

/-- A rate and two incomes of which one follows from the other and the rate. -/
def netAndGross : Solution where
  parameters := [{ id := "1", name := "Rate", value := some (.number 0.25) }]
  calculations := [
    { id := "net", name := "net income", formula := "gross_income * (1 - Rate)" },
    { id := "gross", name := "gross income", formula := "80 + 20" }]

/-- The net income is the same whether it stands before or behind the gross one. -/
theorem recalculate_netAndGross :
    (recalculate .standard netAndGross []).calculations[0]? =
      (recalculate .standard ⟨netAndGross.parameters, netAndGross.calculations.reverse⟩
        []).calculations[1]? := by
  have hascii : (netAndGross.calculations.all fun calculation ↦
      calculation.formula.toList.all fun character ↦ character.toNat < 128) = true := by
    decide +kernel
  have hformulas : ∀ calculation ∈ netAndGross.calculations,
      ∀ character ∈ calculation.formula.toList, character.toNat < 128 :=
    fun calculation hcalculation ↦
      isAscii_of_all (List.all_eq_true.mp hascii calculation hcalculation)
  have hplain : netAndGross.IsNamedPlainly :=
    ⟨hformulas, by decide +kernel, by decide +kernel, by decide +kernel, by decide +kernel⟩
  have hperm := (List.reverse_perm netAndGross.calculations).symm
  have hvalued : ∀ parameter ∈ netAndGross.parameters, ∀ calculation ∈ netAndGross.calculations,
      parameter.name ∈ aliases calculation.name ∨
        identifier parameter.name ∈ aliases calculation.name →
      (Ledger.parameterValue [] parameter).isSome = true := by decide +kernel
  have hsame : netAndGross.calculations[0]? = netAndGross.calculations.reverse[1]? := rfl
  exact recalculate_eq_of_perm hplain hvalued hperm hsame .standard

end Formulary
