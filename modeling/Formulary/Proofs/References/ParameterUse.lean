import Formulary.Proofs.Name.CandidateRuns
import Formulary.Proofs.Name.TierUnion
import Formulary.Proofs.Registry.Run
import Formulary.Proofs.Substitution.WholeWords
import Formulary.Usage
import Mathlib.Data.String.Basic

/-!
# Which parameters are used

A formula mentions a name if a candidate of the formula matches it at some tier. The used parameters
are those that some formula mentions and, as soon as there is a calculation, the conditional ones
and the filters that feed them, `mem_usedParameterIds_iff`. As each calculation adds its mentions on
its own, several lists of calculations use together what each of them uses, `usedParameterIds_laws`.
A run that stands in a formula stands in one of its candidates, which contains it in small letters
as well. So a parameter is used wherever its name stands, `mem_usedParameterIds_of_isRun`.
-/

set_option autoImplicit false
set_option relaxedAutoImplicit false

namespace Formulary.Name

open Formulary.Text

/-! ### Words in candidates -/

section

variable {cut : List Piece} {key text : List Char}

/-- A run that stands in a text stands in one of its candidate runs. -/
theorem exists_run_of_standsIn (hcut : Dissects cut text) (hkey : isRun key = true)
    (hstands : StandsIn key text) : ∃ word, .run word ∈ cut ∧ StandsIn key word := by
  obtain ⟨front, back, hsplit, hfront, hback⟩ := hstands
  obtain ⟨hfirst, hlast, hclean⟩ := isRun_iff.mp hkey
  obtain ⟨letter, letters, rfl⟩ : ∃ letter letters, key = letter :: letters := by
    cases key with
    | nil => cases hfirst
    | cons letter letters => exact ⟨letter, letters, rfl⟩
  have hstart : isPlainStart letter = true := hfirst
  induction hcut generalizing front with
  | nil => cases front <;> cases hsplit
  | @other character others rest hother _ ih =>
    cases front with
    | nil =>
      obtain ⟨rfl, _⟩ := List.cons.inj hsplit
      exact absurd (hother.symm.trans hstart) Bool.false_ne_true
    | cons first front =>
      have hbehind : front.getLast?.any isPlainCharacter = false := by
        cases front with
        | nil => rfl
        | cons second front => rwa [List.getLast?_cons_cons] at hfront
      obtain ⟨word, hword, hstands⟩ := ih front hbehind (List.cons.inj hsplit).2
      exact ⟨word, List.mem_cons_of_mem _ hword, hstands⟩
  | @run word others rest hrun hends _ ih =>
    rcases List.append_eq_append_iff.mp hsplit with ⟨gap, rfl, hgap⟩ | ⟨excess, rfl, hexcess⟩
    · have hbehind : gap.getLast?.any isPlainCharacter = false := by
        cases gap with
        | nil => rfl
        | cons first gap =>
          rwa [List.getLast?_append_cons] at hfront
      obtain ⟨word, hword, hstands⟩ := ih gap hbehind hgap
      exact ⟨word, List.mem_cons_of_mem _ hword, hstands⟩
    · -- a run does not reach beyond the end of another one
      obtain ⟨more, rfl⟩ := prefix_of_endsRun hclean hlast hends ⟨back, hexcess⟩
      rw [List.append_assoc] at hexcess
      obtain rfl := List.append_cancel_left hexcess
      refine ⟨_, List.mem_cons_self, front, more, rfl, hfront, ?_⟩
      cases more with
      | nil => rfl
      | cons next more => exact hback

/-- What stands in a plain word is the word. -/
theorem eq_of_standsIn_plain {word : List Char} (hword : word.all isPlainCharacter = true)
    (hstands : StandsIn key word) : key = word := by
  obtain ⟨front, back, rfl, hfront, hback⟩ := hstands
  rw [List.all_append, List.all_append, Bool.and_eq_true, Bool.and_eq_true] at hword
  have hnone {part : List Char} {character? : Option Char}
      (hpart : part.all isPlainCharacter = true)
      (hmember : ∀ character ∈ character?, character ∈ part)
      (hother : character?.any isPlainCharacter = false) : character? = none := by
    refine Option.eq_none_iff_forall_ne_some.mpr fun character hcharacter ↦ ?_
    have hplain := List.all_eq_true.mp hpart character (hmember character hcharacter)
    rw [hcharacter] at hother
    exact Bool.false_ne_true (hother.symm.trans hplain)
  have hempty : front = [] :=
    List.getLast?_eq_none_iff.mp (hnone hword.1 (fun _ ↦ List.mem_of_getLast?) hfront)
  have hnothing : back = [] :=
    List.head?_eq_none_iff.mp (hnone hword.2.2 (fun _ ↦ List.mem_of_mem_head?) hback)
  rw [hempty, hnothing, List.nil_append, List.append_nil]

/-- A run that stands in a formula stands in one of its candidates, unless it is reserved. -/
theorem exists_candidate_of_standsIn {formula : String} (hkey : isRun key = true)
    (hfree : String.ofList key ∉ reservedWords) (hstands : StandsIn key formula.toList) :
    ∃ token ∈ candidates formula [], isRun token.toList = true ∧ StandsIn key token.toList := by
  have hcut := dissects_pieces formula.toList
  obtain ⟨word, hword, hinside⟩ := exists_run_of_standsIn hcut hkey hstands
  have hrun := hcut.isRun hword
  have hunreserved : String.ofList word ∉ reservedWords := by
    intro hreserved
    obtain ⟨-, hplain, -⟩ := identifierCharacters_of_mem_reservedWords hreserved
    rw [String.toList_ofList] at hplain
    rw [eq_of_standsIn_plain hplain hinside] at hfree
    exact hfree hreserved
  refine ⟨String.ofList word, ?_, by rwa [String.toList_ofList], by rwa [String.toList_ofList]⟩
  rw [candidates, List.mem_filter]
  exact ⟨List.mem_map_of_mem (mem_runs_of_mem_pieces hword), by simpa using hunreserved⟩

end

/-! ### The loosest tier -/

/-- A name that stands in a run matches it at the loosest tier. -/
theorem matches_part_of_standsIn {token name : String} (htoken : isRun token.toList = true)
    (hname : name ≠ "") (hstands : StandsIn name.toList token.toList) :
    Tier.part.matches token name = true := by
  have hclean := (isRun_iff.mp htoken).2.2
  obtain ⟨front, back, hsplit, -, -⟩ := hstands
  have hinside : ∀ character ∈ name.toList, isClean character = true := fun character hmember ↦
    hclean character (by rw [hsplit]; simp [hmember])
  have hoccurs : occursIn (lower name.toList) (lower token.toList) = true := by
    rw [lower_of_clean hclean, lower_of_clean hinside, hsplit, List.map_append, List.map_append]
    exact (occursIn_iff _ _).mpr ⟨_, _, (List.append_assoc _ _ _).symm⟩
  have hsome : lower name.toList ≠ [] :=
    fun hnone ↦ hname (by simpa using (lower_eq_nil_iff _).mp hnone)
  refine matches_part_iff.mpr (Or.inl ?_)
  exact (containsEither_comm _ _).trans (containsEither_of_occursIn hsome hoccurs)

/-- A formula mentions a name: one of its candidates matches the name at some tier. -/
def Mentions (formula name : String) : Prop :=
  ∃ token ∈ candidates formula [], ∃ tier ∈ Tier.all, tier.matches token name = true

end Formulary.Name

namespace Formulary

open Formulary.Name Formulary.Text

variable {parameters : List Parameter} {calculations : List Calculation} {id : String}

/-! ### The used parameters -/

/-- A rule names an option of a filter by its condition or by its value. -/
def ConditionalRule.NamesOption (rule : ConditionalRule) (option : DropdownOption) : Prop :=
  ∃ identity, option.identity = some identity ∧
    (rule.condition = identity ∨ ∃ value, rule.value = some value ∧ value.display = identity)

theorem mem_namedIn_iff {formula : String} : id ∈ namedIn parameters formula ↔
    ∃ parameter ∈ parameters, parameter.id = id ∧ Mentions formula parameter.name := by
  rw [namedIn, List.mem_flatMap]
  constructor
  · rintro ⟨token, htoken, hreferenced⟩
    obtain ⟨parameter, hparameter, hid, hmatches⟩ := mem_identities_referenced_iff.mp hreferenced
    exact ⟨parameter, hparameter, hid, token, htoken, hmatches⟩
  · rintro ⟨parameter, hparameter, hid, token, htoken, hmatches⟩
    exact ⟨token, htoken, mem_identities_referenced_iff.mpr ⟨parameter, hparameter, hid, hmatches⟩⟩

theorem feeds_iff {filter conditional : Parameter} : feeds filter conditional = true ↔
    ∃ rule ∈ conditional.rules, ∃ option ∈ filter.options, rule.NamesOption option := by
  simp only [feeds, List.any_eq_true, List.mem_filterMap, ConditionalRule.names, Bool.or_eq_true,
    beq_iff_eq, Option.any_eq_true, ConditionalRule.NamesOption]
  constructor
  · rintro ⟨rule, hrule, identity, ⟨option, hoption, hidentity⟩, hnames⟩
    exact ⟨rule, hrule, option, hoption, identity, hidentity, hnames⟩
  · rintro ⟨rule, hrule, option, hoption, identity, hidentity, hnames⟩
    exact ⟨rule, hrule, identity, ⟨option, hoption, hidentity⟩, hnames⟩

/-- A parameter is used whatever the formulas say: it is conditional, or a filter with an option
that a rule of a conditional parameter names. -/
def IsStructural (parameters : List Parameter) (parameter : Parameter) : Prop :=
  parameter.display = .conditional ∨ parameter.isFilter = true ∧
    ∃ conditional ∈ parameters, conditional.display = .conditional ∧
      ∃ rule ∈ conditional.rules, ∃ option ∈ parameter.options, rule.NamesOption option

theorem mem_conditionals_iff {conditional : Parameter} : conditional ∈ conditionals parameters ↔
    conditional ∈ parameters ∧ conditional.display = .conditional := by
  rw [conditionals, List.mem_filter, beq_iff_eq]

theorem mem_feedingIds_append_iff :
    id ∈ feedingIds parameters ++ (conditionals parameters).map (·.id) ↔
      ∃ parameter ∈ parameters, parameter.id = id ∧ IsStructural parameters parameter := by
  simp only [feedingIds, List.mem_append, List.mem_map, List.mem_filter, Bool.and_eq_true,
    List.any_eq_true, feeds_iff, mem_conditionals_iff, IsStructural]
  constructor
  · rintro (⟨filter, ⟨hfilter, hshown, conditional, ⟨hconditional, hdisplay⟩, hnames⟩, hid⟩ |
      ⟨conditional, ⟨hconditional, hdisplay⟩, hid⟩)
    · exact ⟨filter, hfilter, hid, Or.inr ⟨hshown, conditional, hconditional, hdisplay, hnames⟩⟩
    · exact ⟨conditional, hconditional, hid, Or.inl hdisplay⟩
  · rintro ⟨parameter, hparameter, hid, hdisplay | ⟨hshown, conditional, hconditional, hrules⟩⟩
    · exact Or.inr ⟨parameter, ⟨hparameter, hdisplay⟩, hid⟩
    · exact Or.inl ⟨parameter,
        ⟨hparameter, hshown, conditional, ⟨hconditional, hrules.1⟩, hrules.2⟩, hid⟩

/-- The used parameters are those that some formula mentions and, if there is any calculation, those
that are used whatever the formulas say. -/
theorem mem_usedParameterIds_iff : id ∈ usedParameterIds parameters calculations ↔
    ∃ parameter ∈ parameters, parameter.id = id ∧
      ∃ calculation ∈ calculations,
        Mentions calculation.formula parameter.name ∨ IsStructural parameters parameter := by
  rw [usedParameterIds, (arranged_perm _ _).mem_iff, List.mem_eraseDups, usedIds]
  split
  · rename_i hnone
    simp [List.isEmpty_iff.mp hnone]
  · rename_i hsome
    rw [List.isEmpty_iff] at hsome
    rw [List.append_assoc, List.mem_append, mem_feedingIds_append_iff, List.mem_flatMap]
    simp only [mem_namedIn_iff]
    constructor
    · rintro (⟨calculation, hcalculation, parameter, hparameter, hid, hmentions⟩ |
        ⟨parameter, hparameter, hid, hstructural⟩)
      · exact ⟨parameter, hparameter, hid, calculation, hcalculation, Or.inl hmentions⟩
      · obtain ⟨calculation, hcalculation⟩ := List.exists_mem_of_ne_nil _ hsome
        exact ⟨parameter, hparameter, hid, calculation, hcalculation, Or.inr hstructural⟩
    · rintro ⟨parameter, hparameter, hid, calculation, hcalculation, hmentions | hstructural⟩
      · exact Or.inl ⟨calculation, hcalculation, parameter, hparameter, hid, hmentions⟩
      · exact Or.inr ⟨parameter, hparameter, hid, hstructural⟩

/-! ### Sets of identities -/

/-- The identities of the used parameters are in order, and none is repeated. -/
theorem ascending_usedParameterIds (parameters : List Parameter)
    (calculations : List Calculation) :
    (usedParameterIds parameters calculations).Pairwise (· < ·) := by
  have hnodup : (usedParameterIds parameters calculations).Nodup :=
    (arranged_perm _ _).nodup_iff.mpr (nodup_eraseDups _)
  have hordered : (usedParameterIds parameters calculations).Pairwise
      (fun first second ↦ decide (first ≤ second) = true) := by
    refine arranged_pairwise (fun first second ↦ ?_) (fun first second third ↦ ?_) _
    · simpa using String.le_total first second
    · simpa using String.le_trans
  exact (hordered.and hnodup).imp fun h ↦ lt_of_le_of_ne (of_decide_eq_true h.1) h.2

/-- Lists in order without repetitions are the same if their members are. -/
theorem eq_of_ascending {first second : List String} (hfirst : first.Pairwise (· < ·))
    (hsecond : second.Pairwise (· < ·)) (hsame : ∀ item, item ∈ first ↔ item ∈ second) :
    first = second := by
  have hperm : first.Perm second :=
    (List.perm_ext_iff_of_nodup (hfirst.imp ne_of_lt) (hsecond.imp ne_of_lt)).mpr hsame
  exact hperm.eq_of_pairwise (fun _ _ _ _ hless hmore ↦ absurd hmore (lt_asymm hless)) hfirst
    hsecond

/-- More calculations use more. -/
theorem usedParameterIds_subset {fewer more : List Calculation} (hsubset : fewer ⊆ more) :
    usedParameterIds parameters fewer ⊆ usedParameterIds parameters more := by
  intro id hid
  rw [mem_usedParameterIds_iff] at hid ⊢
  obtain ⟨parameter, hparameter, hid, calculation, hcalculation, hused⟩ := hid
  exact ⟨parameter, hparameter, hid, calculation, hsubset hcalculation, hused⟩

theorem mem_usedParameterIds_append_iff {first second : List Calculation} :
    id ∈ usedParameterIds parameters (first ++ second) ↔
      id ∈ usedParameterIds parameters first ∨ id ∈ usedParameterIds parameters second := by
  simp only [mem_usedParameterIds_iff, List.mem_append, or_and_right, exists_or, and_or_left]
  exact or_or_or_comm

/-- The used parameters are a set of identities in order. Two lists of calculations use together
what each of them uses. So more calculations use more, and neither the order nor the repetition of
calculations makes a difference. Conditional parameters are always used, and so are the filters with
an option that a rule of one names by its condition or its value; but without calculations nothing
is used. -/
theorem usedParameterIds_laws (parameters : List Parameter) :
    (∀ calculations, (usedParameterIds parameters calculations).Pairwise (· < ·)) ∧
      (∀ first second id, id ∈ usedParameterIds parameters (first ++ second) ↔
        id ∈ usedParameterIds parameters first ∨ id ∈ usedParameterIds parameters second) ∧
      (∀ fewer more, fewer ⊆ more →
        usedParameterIds parameters fewer ⊆ usedParameterIds parameters more) ∧
      (∀ first second, (∀ calculation, calculation ∈ first ↔ calculation ∈ second) →
        usedParameterIds parameters first = usedParameterIds parameters second) ∧
      (∀ calculations ≠ [], ∀ parameter ∈ parameters, parameter.display = .conditional →
        parameter.id ∈ usedParameterIds parameters calculations) ∧
      (∀ calculations ≠ [], ∀ filter ∈ parameters, filter.isFilter = true →
        ∀ conditional ∈ parameters, conditional.display = .conditional →
          ∀ rule ∈ conditional.rules, ∀ option ∈ filter.options, rule.NamesOption option →
            filter.id ∈ usedParameterIds parameters calculations) ∧
      usedParameterIds parameters [] = [] := by
  have hstructural : ∀ calculations ≠ [], ∀ parameter ∈ parameters,
      IsStructural parameters parameter →
        parameter.id ∈ usedParameterIds parameters calculations := by
    intro calculations hsome parameter hparameter hstructural
    obtain ⟨calculation, hcalculation⟩ := List.exists_mem_of_ne_nil _ hsome
    exact mem_usedParameterIds_iff.mpr
      ⟨parameter, hparameter, rfl, calculation, hcalculation, Or.inr hstructural⟩
  refine ⟨ascending_usedParameterIds parameters, fun _ _ _ ↦ mem_usedParameterIds_append_iff,
    fun _ _ ↦ usedParameterIds_subset, fun first second hsame ↦ ?_,
    fun calculations hsome parameter hparameter hdisplay ↦
      hstructural calculations hsome parameter hparameter (Or.inl hdisplay), ?_, rfl⟩
  · refine eq_of_ascending (ascending_usedParameterIds _ _) (ascending_usedParameterIds _ _)
      fun id ↦ ⟨fun hid ↦ ?_, fun hid ↦ ?_⟩
    · exact usedParameterIds_subset (fun calculation ↦ (hsame calculation).mp) hid
    · exact usedParameterIds_subset (fun calculation ↦ (hsame calculation).mpr) hid
  · intro calculations hsome filter hfilter hshown conditional hconditional hdisplay rule hrule
      option hoption hnames
    exact hstructural calculations hsome filter hfilter (Or.inr
      ⟨hshown, conditional, hconditional, hdisplay, rule, hrule, option, hoption, hnames⟩)

/-! ### Parameters that are mentioned by name -/

/-- A parameter is used wherever its name stands in a formula with no plain character next to it,
if the name is a run and not reserved. The formula may be any text. -/
theorem mem_usedParameterIds_of_isRun {parameter : Parameter} {calculation : Calculation}
    (hparameter : parameter ∈ parameters) (hname : isRun parameter.name.toList = true)
    (hfree : parameter.name ∉ reservedWords) (hcalculation : calculation ∈ calculations)
    (hstands : StandsIn parameter.name.toList calculation.formula.toList) :
    parameter.id ∈ usedParameterIds parameters calculations := by
  obtain ⟨token, htoken, hrun, hinside⟩ :=
    exists_candidate_of_standsIn hname (by rwa [String.ofList_toList]) hstands
  have hsome : parameter.name ≠ "" := by
    intro hempty
    rw [hempty] at hname
    exact absurd hname (by decide)
  exact mem_usedParameterIds_iff.mpr ⟨parameter, hparameter, rfl, calculation, hcalculation,
    Or.inl ⟨token, htoken, .part, by decide, matches_part_of_standsIn hrun hsome hinside⟩⟩

/-- The name of the price stands between other words and behind a letter that is not ASCII. -/
theorem mem_usedParameterIds_price :
    let price : Parameter := { id := "p", name := "Energy  Price" }
    let cost : Calculation := { id := "c", name := "Cost", formula := "été pi Energy  Price 2 / 5" }
    isRun price.name.toList = true ∧ StandsIn price.name.toList cost.formula.toList ∧
      "p" ∈ usedParameterIds [{ id := "q", name := "%" }, price] [cost] := by
  intro price cost
  have hname : isRun price.name.toList = true := by decide +kernel
  have hstands : StandsIn price.name.toList cost.formula.toList :=
    ⟨"été pi ".toList, " 2 / 5".toList, by decide +kernel, by decide +kernel, by decide +kernel⟩
  exact ⟨hname, hstands, mem_usedParameterIds_of_isRun (List.mem_cons_of_mem _ List.mem_cons_self)
    hname (by decide +kernel) List.mem_cons_self hstands⟩

end Formulary
