import Formulary.Proofs.Evaluation.AgreeingLedgers
import Formulary.Proofs.Recalculation.PlainSolution

/-!
# Results that a formula does not refer to

`resultsAt` lists the numbers found at some positions under the names of the calculations there.
Where the words of a solution are apart, each word that stands in a formula and is known from such a
list belongs to a calculation that the formula refers to. So the value of a formula does not change
when results are added that it does not refer to, `evaluateIn_resultsAt`.
-/

set_option autoImplicit false
set_option relaxedAutoImplicit false

namespace Formulary

open Formulary.Name Formulary.Number Formulary.Text

variable {parameters : List Parameter} {calculations : List Calculation} {overrides : Overrides}

/-! ### Results at positions -/

/-- The name of the calculation at a position with the number found there. -/
def resultAt (calculations : List Calculation) (found : Nat → Option Float) (position : Nat) :
    Option (String × Float) :=
  calculations[position]?.bind fun calculation ↦
    (found position).map fun value ↦ (calculation.name, value)

/-- The results at some positions. -/
def resultsAt (calculations : List Calculation) (found : Nat → Option Float)
    (positions : List Nat) : List (String × Float) :=
  positions.filterMap (resultAt calculations found)

variable {found : Nat → Option Float} {positions : List Nat} {result : String × Float}

theorem mem_resultsAt : result ∈ resultsAt calculations found positions ↔
    ∃ position ∈ positions, ∃ calculation, calculations[position]? = some calculation ∧
      result.1 = calculation.name ∧ found position = some result.2 := by
  obtain ⟨name, value⟩ := result
  simp only [resultsAt, resultAt, List.mem_filterMap, Option.bind_eq_some_iff,
    Option.map_eq_some_iff, Prod.mk.injEq]
  refine exists_congr fun position ↦ and_congr_right fun _ ↦ exists_congr fun calculation ↦
    and_congr_right fun _ ↦ ?_
  constructor
  · rintro ⟨_, hfound, rfl, rfl⟩
    exact ⟨rfl, hfound⟩
  · rintro ⟨rfl, hfound⟩
    exact ⟨value, hfound, rfl, rfl⟩

theorem resultsAt_append (calculations : List Calculation) (found : Nat → Option Float)
    (front back : List Nat) : resultsAt calculations found (front ++ back) =
      resultsAt calculations found front ++ resultsAt calculations found back :=
  List.filterMap_append

theorem resultsAt_congr {other : Nat → Option Float}
    (hagree : ∀ position ∈ positions, found position = other position) :
    resultsAt calculations found positions = resultsAt calculations other positions := by
  refine List.filterMap_congr fun position hposition ↦ ?_
  rw [resultAt, resultAt, hagree position hposition]

theorem isFinite_of_mem_resultsAt
    (hfinite : ∀ position value, found position = some value → value.isFinite = true) :
    ∀ result ∈ resultsAt calculations found positions, result.2.isFinite = true := by
  intro result hresult
  obtain ⟨position, _, _, _, _, hfound⟩ := mem_resultsAt.mp hresult
  exact hfinite position _ hfound

/-- A ledger of parameters and results has plain words if the words that they answer to are plain in
this sense. -/
theorem hasPlainWords_of_words {results : List (String × Float)}
    (hparameters : ∀ parameter ∈ parameters, ∀ key ∈ Ledger.parameterKeys parameter, key ≠ "" →
      (∀ character ∈ key.toList, character.toNat < 128) → hasPlainEdges key.toList = true)
    (hwords : ∀ result ∈ results, ∀ key, Ledger.Answers result.1 key →
      (∀ character ∈ key.toList, character.toNat < 128) → hasPlainEdges key.toList = true)
    (hresults : ∀ result ∈ results, result.2.isFinite = true) :
    ((Ledger.ofParameters parameters overrides).withResults results).HasPlainWords := by
  constructor
  · intro key value hvalue hascii
    rcases Ledger.of_get?_withResults hresults hvalue with hknown | ⟨result, hresult, hanswers, _⟩
    · obtain ⟨hparameter, _⟩ := Ledger.get?_ofParameters hknown
      obtain ⟨parameter, hmember, _, hkey, hnonempty⟩ :=
        (Ledger.isParameterKey_ofParameters parameters overrides key).mp hparameter
      exact hparameters parameter hmember key hkey hnonempty hascii
    · exact hwords result hresult key hanswers hascii
  · intro key value hvalue
    rcases Ledger.of_get?_withResults hresults hvalue with hknown | ⟨result, hresult, _, rfl⟩
    · exact (Ledger.get?_ofParameters hknown).2
    · exact hresults result hresult

variable (hapart : (Solution.mk parameters calculations).WordsApart overrides)

include hapart

/-- The ledger of a solution whose words are apart, with any results, has plain words. -/
theorem hasPlainWords_withResults
    (hfinite : ∀ position value, found position = some value → value.isFinite = true) :
    ((Ledger.ofParameters parameters overrides).withResults
      (resultsAt calculations found positions)).HasPlainWords := by
  refine hasPlainWords_of_words (fun parameter hparameter key hkey _ ↦
    hapart.parameters parameter hparameter key hkey) ?_ (isFinite_of_mem_resultsAt hfinite)
  intro result hresult key hanswers _
  obtain ⟨_, _, calculation, hcalculation, hname, _⟩ := mem_resultsAt.mp hresult
  have hplain := (hapart.calculations calculation (List.mem_of_getElem? hcalculation)).1
  rw [hname] at hanswers
  exact (plainAlias_of_mem_aliases hplain hanswers.1).edges

/-- A word that a calculation answers to starts like a name. -/
theorem starts_name_of_answers {calculation : Calculation}
    (hcalculation : calculation ∈ calculations) {key : String}
    (hanswers : Ledger.Answers calculation.name key) : key.toList.head?.any isNameStart = true :=
  have hplain := (hapart.calculations calculation hcalculation).1
  (plainAlias_of_mem_aliases hplain hanswers.1).starts_name

/-! ### Results that a formula does not refer to -/

variable {source : Nat} {consumer : Calculation} {fewer : List Nat}

/-- Results that answer to the same word are the same. -/
theorem value_eq_of_answers {other : String × Float} {key : String}
    (hresult : result ∈ resultsAt calculations found positions)
    (hother : other ∈ resultsAt calculations found positions)
    (hanswers : Ledger.Answers result.1 key) (hotherAnswers : Ledger.Answers other.1 key) :
    other.2 = result.2 := by
  obtain ⟨first, _, one, hone, honeName, hfirst⟩ := mem_resultsAt.mp hother
  obtain ⟨second, _, two, htwo, htwoName, hsecond⟩ := mem_resultsAt.mp hresult
  obtain rfl := position_eq_of_mem_aliases hapart hone htwo (honeName ▸ hotherAnswers.1)
    (htwoName ▸ hanswers.1)
  exact Option.some.inj (hfirst.symm.trans hsecond)

/-- A result whose word stands in a formula is one of those that the formula refers to. -/
theorem mem_resultsAt_of_standsIn (hconsumer : calculations[source]? = some consumer)
    (hreferred : ∀ target ∈ positions, (found target).isSome = true →
      Refers parameters calculations source target → target ∈ fewer)
    {key : String} (hstands : StandsIn key.toList consumer.formula.toList)
    (hfree : (Ledger.ofParameters parameters overrides).isParameterKey key = false)
    (hresult : result ∈ resultsAt calculations found positions)
    (hanswers : Ledger.Answers result.1 key) :
    result ∈ resultsAt calculations found fewer := by
  obtain ⟨target, htarget, dependency, hdependency, hname, hfound⟩ := mem_resultsAt.mp hresult
  rw [hname] at hanswers
  have hrefers := refersTo_of_standsIn hapart (List.mem_of_getElem? hconsumer)
    (List.mem_of_getElem? hdependency) hanswers hfree hstands
  have hmember := hreferred target htarget (by rw [hfound]; rfl)
    ⟨consumer, dependency, hconsumer, hdependency, hrefers⟩
  exact mem_resultsAt.mpr ⟨target, hmember, dependency, hdependency, hname, hfound⟩

/-- The words that stand in a formula do not depend on results that the formula does not refer
to. -/
theorem get?_withResults_resultsAt
    (hfinite : ∀ position value, found position = some value → value.isFinite = true)
    (hconsumer : calculations[source]? = some consumer) (hfewer : fewer ⊆ positions)
    (hreferred : ∀ target ∈ positions, (found target).isSome = true →
      Refers parameters calculations source target → target ∈ fewer)
    {key : String} (hstands : StandsIn key.toList consumer.formula.toList) :
    ((Ledger.ofParameters parameters overrides).withResults
        (resultsAt calculations found fewer)).get? key =
      ((Ledger.ofParameters parameters overrides).withResults
        (resultsAt calculations found positions)).get? key := by
  have hfewerFinite := @isFinite_of_mem_resultsAt calculations found fewer hfinite
  have hallFinite := @isFinite_of_mem_resultsAt calculations found positions hfinite
  have hsubset : resultsAt calculations found fewer ⊆ resultsAt calculations found positions :=
    List.filterMap_subset _ hfewer
  by_cases hanswered : ∃ result ∈ resultsAt calculations found positions,
      Ledger.Answers result.1 key
  · obtain ⟨result, hresult, hanswers⟩ := hanswered
    by_cases hparameter : (Ledger.ofParameters parameters overrides).isParameterKey key = true
    · rw [Ledger.get?_withResults_of_isParameterKey hfewerFinite hparameter,
        Ledger.get?_withResults_of_isParameterKey hallFinite hparameter]
    · have hfree := Bool.eq_false_iff.mpr hparameter
      have hknown : result ∈ resultsAt calculations found fewer :=
        mem_resultsAt_of_standsIn hapart hconsumer hreferred hstands hfree hresult hanswers
      have hagree : ∀ other ∈ resultsAt calculations found positions,
          Ledger.Answers other.1 key → other.2 = result.2 :=
        fun other hother ↦ value_eq_of_answers hapart hresult hother hanswers
      rw [Ledger.get?_withResults hallFinite hfree hagree,
        Ledger.get?_withResults hfewerFinite hfree fun other hother ↦
          hagree other (hsubset hother),
        if_pos ⟨result, hknown, hanswers⟩, if_pos ⟨result, hresult, hanswers⟩]
  · have hnone : ∀ result ∈ resultsAt calculations found positions,
        ¬Ledger.Answers result.1 key :=
      fun result hresult hanswers ↦ hanswered ⟨result, hresult, hanswers⟩
    rw [Ledger.get?_withResults_of_unanswered hallFinite hnone,
      Ledger.get?_withResults_of_unanswered hfewerFinite
        fun result hresult ↦ hnone result (hsubset hresult)]

/-- The value of a formula does not depend on results that the formula does not refer to. -/
theorem evaluateIn_resultsAt
    (hfinite : ∀ position value, found position = some value → value.isFinite = true)
    (hconsumer : calculations[source]? = some consumer) (hfewer : fewer ⊆ positions)
    (hreferred : ∀ target ∈ positions, (found target).isSome = true →
      Refers parameters calculations source target → target ∈ fewer) (settings : Settings) :
    evaluateIn settings ((Ledger.ofParameters parameters overrides).withResults
        (resultsAt calculations found fewer)) consumer.formula =
      evaluateIn settings ((Ledger.ofParameters parameters overrides).withResults
        (resultsAt calculations found positions)) consumer.formula := by
  refine evaluateIn_congr (hasPlainWords_withResults hapart hfinite)
    (hasPlainWords_withResults hapart hfinite)
    (hapart.formulas consumer (List.mem_of_getElem? hconsumer))
    (fun key hstands ↦
      get?_withResults_resultsAt hapart hfinite hconsumer hfewer hreferred hstands)
    (fun key hdiffer ↦ ?_) settings
  by_cases hanswered : ∃ result ∈ resultsAt calculations found positions,
      Ledger.Answers result.1 key
  · obtain ⟨result, hresult, hanswers⟩ := hanswered
    obtain ⟨_, _, calculation, hcalculation, hname, _⟩ := mem_resultsAt.mp hresult
    rw [hname] at hanswers
    exact starts_name_of_answers hapart (List.mem_of_getElem? hcalculation) hanswers
  · have hnone : ∀ result ∈ resultsAt calculations found positions,
        ¬Ledger.Answers result.1 key :=
      fun result hresult hanswers ↦ hanswered ⟨result, hresult, hanswers⟩
    refine absurd ?_ hdiffer
    rw [Ledger.get?_withResults_of_unanswered (isFinite_of_mem_resultsAt hfinite) hnone,
      Ledger.get?_withResults_of_unanswered (isFinite_of_mem_resultsAt hfinite)]
    exact fun result hresult ↦ hnone result (List.filterMap_subset _ hfewer hresult)

end Formulary
