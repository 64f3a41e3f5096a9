import Formulary.Proofs.Ledger.Frame
import Formulary.Proofs.Recalculation.FixedPoint
import Formulary.Proofs.References.ParameterUse

/-!
# Parameters that are not used

If a word of a parameter stands in a formula, then it stands in a candidate of the formula, and the
candidate names the parameter at the loosest tier at the latest,
`mem_usedParameterIds_of_standsIn`. So what a user enters for a parameter that is not used makes no
difference to any formula, which is `preview_eq_of_unused`. It holds of parameters with plain names
that no formula calls by their identity: in `preview_shares` a formula calls one so, and it counts
as unused all the same.
-/

set_option autoImplicit false
set_option relaxedAutoImplicit false

namespace Formulary.Name

open Formulary.Text

variable {cut : List Piece} {key text front back : List Char} {name : String}

/-! ### Plain names -/

theorem isRun_of_plainAlias {name word : List Char} (hname : isPlainName name = true)
    (halias : PlainAlias name word) : isRun word = true := by
  obtain ⟨hfirst, hedges, hplain⟩ := halias
  rw [hasPlainEdges, Bool.and_eq_true] at hedges
  refine isRun_iff.mpr ⟨?_, hedges.2, fun character hcharacter ↦ ?_⟩
  · refine any_imp (fun character _ hletter ↦ ?_) hfirst
    rw [isPlainStart, hletter, Bool.true_or]
  · rw [isClean, Bool.or_eq_true]
    rcases hplain with rfl | hall
    · rcases ((isPlainName_iff word).mp hname).1 character hcharacter with hhere | rfl
      · exact Or.inl hhere
      · exact Or.inr (by decide)
    · exact Or.inl (List.all_eq_true.mp hall character hcharacter)

theorem isGap_of_isAsciiLetter {character : Char} (hletter : isAsciiLetter character = true) :
    isGap character = false := by
  obtain ⟨hwhite, _, hmark⟩ := isSeparator_of_isAsciiLetter hletter
  rw [isGap, hwhite, beq_eq_false_iff_ne.mpr hmark, Bool.or_false]

theorem isGap_of_isAsciiDigit {character : Char} (hdigit : isAsciiDigit character = true) :
    isGap character = false := by
  have hmark : (character == '_') = false := by
    refine beq_eq_false_iff_ne.mpr ?_
    rintro rfl
    exact absurd hdigit (by decide)
  rw [isGap, isWhiteSpace_of_isAsciiDigit hdigit, hmark, Bool.or_false]

/-- A character that is no gap stays none in small letters. -/
theorem any_isGap_map {word : List Char} (hclean : ∀ character ∈ word, isClean character = true)
    {character? : Option Char} (hmember : ∀ character ∈ character?, character ∈ word)
    (hgap : character?.any isGap = false) : (character?.map smallLetter).any isGap = false := by
  cases character? with
  | none => rfl
  | some character =>
    show isGap (smallLetter character) = false
    rw [isGap_smallLetter (hclean character (hmember character rfl))]
    exact hgap

theorem ne_underscore_of_any_isGap {character? : Option Char}
    (hgap : character?.any isGap = false) : character? ≠ some '_' := by
  rintro rfl
  exact absurd hgap (by decide)

/-- The identifier of a plain name has the same normal form as the name. -/
theorem normalized_identifier (hname : isPlainName name.toList = true) :
    collapseRuns isGap '_' (lower (identifier name).toList) =
      collapseRuns isGap '_' (lower name.toList) := by
  have hclean := (isRun_iff.mp (isRun_of_plainAlias hname (plainAlias_self hname))).2.2
  obtain ⟨_, _, hfirst, hlast⟩ := (isPlainName_iff _).mp hname
  have hhead : (lower name.toList).head?.any isGap = false := by
    rw [lower_of_clean hclean, List.head?_map]
    refine any_isGap_map hclean (fun _ ↦ List.mem_of_mem_head?) ?_
    cases hcharacter : name.toList.head? with
    | none => rfl
    | some character =>
      rw [hcharacter] at hfirst
      exact isGap_of_isAsciiLetter hfirst
  have hend : (lower name.toList).getLast?.any isGap = false := by
    rw [lower_of_clean hclean, List.getLast?_map]
    refine any_isGap_map hclean (fun _ ↦ List.mem_of_mem_getLast?) ?_
    cases hcharacter : name.toList.getLast? with
    | none => rfl
    | some character =>
      rw [hcharacter] at hlast
      rcases (Bool.or_eq_true _ _).mp hlast with hletter | hdigit
      · exact isGap_of_isAsciiLetter hletter
      · exact isGap_of_isAsciiDigit hdigit
  have hstripped : strip '_' (collapseRuns isGap '_' (lower name.toList)) =
      collapseRuns isGap '_' (lower name.toList) := by
    refine strip_eq_self ?_ ?_
    · rw [head?_collapseRuns hhead]
      exact ne_underscore_of_any_isGap hhead
    · rw [getLast?_collapseRuns hend]
      exact ne_underscore_of_any_isGap hend
  rw [identifier, String.toList_ofList, lower_identifierCharacters hclean, hstripped]
  exact collapseFrom_of_tight (tight_collapseFrom false _) fun h ↦ absurd h Bool.false_ne_true

/-- A word that starts with a letter and stands in a run is part of it in normal form, too. -/
theorem occursIn_normalized {word : List Char} (hword : isRun word = true)
    (hfirst : key.head?.any isAsciiLetter = true) (hstands : StandsIn key word) :
    occursIn (collapseRuns isGap '_' (lower key)) (collapseRuns isGap '_' (lower word)) = true := by
  obtain ⟨front, back, rfl, _, _⟩ := hstands
  have hclean := (isRun_iff.mp hword).2.2
  have hkey : ∀ character ∈ key, isClean character = true := fun character hcharacter ↦
    hclean character (List.mem_append_right front (List.mem_append_left back hcharacter))
  have hhead : (key.map smallLetter ++ back.map smallLetter).head?.any isGap = false := by
    cases key with
    | nil => cases hfirst
    | cons letter letters =>
      show isGap (smallLetter letter) = false
      rw [isGap_smallLetter (hkey letter List.mem_cons_self)]
      exact isGap_of_isAsciiLetter hfirst
  obtain ⟨rest, hrest⟩ := @isPrefix_collapseFrom isGap '_' false (key.map smallLetter)
    (back.map smallLetter)
  rw [lower_of_clean hclean, lower_of_clean hkey, List.map_append, List.map_append, collapseRuns,
    collapseRuns, collapseFrom_append false _ hhead, collapseRuns, ← hrest]
  exact (occursIn_iff _ _).mpr ⟨_, rest, (List.append_assoc _ _ _).symm⟩

/-! ### The loosest tier -/

/-- Names of which one contains the other in normal form match at the loosest tier. -/
theorem matches_part {token name : String} (hname : name ≠ "")
    (hoccurs : occursIn (collapseRuns isGap '_' (lower name.toList))
      (collapseRuns isGap '_' (lower token.toList)) = true) :
    Tier.part.matches token name = true := by
  have hsome : collapseRuns isGap '_' (lower name.toList) ≠ [] :=
    collapseRuns_ne_nil fun hnone ↦ hname (by simpa using (lower_eq_nil_iff _).mp hnone)
  refine matches_part_iff.mpr (Or.inr (Or.inr (Or.inl ?_)))
  exact (containsEither_comm _ _).trans (containsEither_of_occursIn hsome hoccurs)

end Formulary.Name

namespace Formulary

open Formulary.Name Formulary.Text

variable {solution : Solution} {parameter : Parameter} {overrides others : Overrides}

/-! ### Used parameters -/

theorem plainAlias_of_key (hname : isPlainName parameter.name.toList = true) {key : String}
    (hkey : key = parameter.name ∨ key = identifier parameter.name) :
    PlainAlias parameter.name.toList key.toList :=
  plainAlias_of_mem_aliases hname (by simp [aliases, ← or_assoc, hkey])

/-- A parameter with a plain name is used where its name or its identifier stands in a formula, if
the identifier is no reserved word. -/
theorem mem_usedParameterIds_of_standsIn (hparameter : parameter ∈ solution.parameters)
    (hname : isPlainName parameter.name.toList = true)
    (hfree : identifier parameter.name ∉ reservedWords)
    {calculation : Calculation} (hcalculation : calculation ∈ solution.calculations)
    {key : String} (hkey : key = parameter.name ∨ key = identifier parameter.name)
    (hstands : StandsIn key.toList calculation.formula.toList) :
    parameter.id ∈ usedParameterIds solution.parameters solution.calculations := by
  have halias := plainAlias_of_key hname hkey
  have hunreserved : key ∉ reservedWords := by
    intro hreserved
    obtain ⟨hself, -, -⟩ := identifierCharacters_of_mem_reservedWords hreserved
    refine hfree ?_
    rcases hkey with rfl | rfl
    · rwa [identifier, hself, String.ofList_toList]
    · exact hreserved
  obtain ⟨token, htoken, hrun, hinside⟩ := exists_candidate_of_standsIn
    (isRun_of_plainAlias hname halias) (by rwa [String.ofList_toList]) hstands
  have hmatches : Tier.part.matches token parameter.name = true := by
    refine matches_part ?_ ?_
    · intro hempty
      rw [hempty] at hname
      exact absurd hname (by decide)
    · have hnormal : collapseRuns isGap '_' (lower key.toList) =
          collapseRuns isGap '_' (lower parameter.name.toList) := by
        rcases hkey with rfl | rfl
        · rfl
        · exact normalized_identifier hname
      rw [← hnormal]
      exact occursIn_normalized hrun halias.first hinside
  exact mem_usedParameterIds_iff.mpr ⟨parameter, hparameter, rfl, calculation, hcalculation,
    Or.inl ⟨token, htoken, .part, by decide, hmatches⟩⟩

/-! ### Unused parameters -/

/-- A solution with ASCII formulas in which the ASCII words of parameters and calculations start and
end with plain characters. -/
structure Solution.HasPlainWords (solution : Solution) : Prop where
  formulas : ∀ calculation ∈ solution.calculations,
    ∀ character ∈ calculation.formula.toList, character.toNat < 128
  parameters : ∀ parameter ∈ solution.parameters, ∀ key ∈ Ledger.parameterKeys parameter,
    key ≠ "" → (∀ character ∈ key.toList, character.toNat < 128) → hasPlainEdges key.toList = true
  calculations : ∀ calculation ∈ solution.calculations, ∀ key ∈ aliases calculation.name,
    key ≠ "" → (∀ character ∈ key.toList, character.toNat < 128) → hasPlainEdges key.toList = true

/-- The ledger of such a solution has plain words. -/
theorem Solution.HasPlainWords.ofSolution (hwords : solution.HasPlainWords)
    (overrides : Overrides) : (Ledger.ofSolution solution overrides).HasPlainWords := by
  rw [ofSolution_eq_withResults]
  refine hasPlainWords_of_words hwords.parameters ?_ fun result hmember ↦
    (exists_calculation_of_namedResult hmember).1
  intro result hmember key hanswers hascii
  obtain ⟨-, calculation, hcalculation, hname, -⟩ := exists_calculation_of_namedResult hmember
  rw [hname] at hanswers
  exact hwords.calculations calculation hcalculation key hanswers.1 hanswers.2 hascii

/-- A word of a parameter with a plain name starts like a name. -/
theorem starts_name_of_mem_parameterKeys (hname : isPlainName parameter.name.toList = true)
    {key : String} (hkey : key ∈ Ledger.parameterKeys parameter) :
    key.toList.head?.any isNameStart = true := by
  rw [Ledger.parameterKeys, List.mem_append] at hkey
  rcases hkey with hnamed | hidentity
  · exact (plainAlias_of_key hname (by simpa using hnamed)).starts_name
  · split at hidentity
    · rename_i hstarts
      simp only [List.mem_cons, List.not_mem_nil, or_false] at hidentity
      rcases hidentity with rfl | rfl
      · exact hstarts
      · rw [String.toList_ofList, List.head?_map]
        exact any_map_of_no_hyphen (by decide +kernel) hstarts
    · cases hidentity

/-- What a user enters for a parameter that is not used makes no difference to the formulas of a
solution. The parameter has a plain name whose identifier is no reserved word, no other parameter
has its identity, and no formula calls it by a word of that identity. -/
theorem preview_eq_of_unused (hwords : solution.HasPlainWords)
    (hunique : (solution.parameters.map (·.id)).Nodup)
    (hparameter : parameter ∈ solution.parameters)
    (hname : isPlainName parameter.name.toList = true)
    (hidentity : ∀ key ∈ Ledger.parameterKeys parameter,
      key ∉ [parameter.name, identifier parameter.name] →
        ∀ calculation ∈ solution.calculations, ¬StandsIn key.toList calculation.formula.toList)
    (hfree : identifier parameter.name ∉ reservedWords)
    (hunused : parameter.id ∉ usedParameterIds solution.parameters solution.calculations)
    (hothers : ∀ id, id ≠ parameter.id → overrides.find? id = others.find? id)
    (settings : Settings) :
    ∀ calculation ∈ solution.calculations,
      preview settings solution overrides calculation.formula =
        preview settings solution others calculation.formula := by
  intro calculation hcalculation
  have honly : ∀ other ∈ solution.parameters, other.id = parameter.id → other = parameter :=
    fun other hother hsame ↦ List.inj_on_of_nodup_map hunique hother hparameter hsame
  have hagree := Ledger.agreesOff_ofSolution honly hothers
  refine evaluateIn_congr (hwords.ofSolution overrides) (hwords.ofSolution others)
    (hwords.formulas calculation hcalculation) (fun key hstands ↦ hagree.get? fun hkey ↦ ?_)
    (fun key hdiffer ↦ ?_) settings
  · have hnamed : key ∈ [parameter.name, identifier parameter.name] :=
      Decidable.byContradiction fun hother ↦
        hidentity key hkey hother calculation hcalculation hstands
    exact hunused (mem_usedParameterIds_of_standsIn hparameter hname hfree hcalculation
      (by simpa using hnamed) hstands)
  · exact starts_name_of_mem_parameterKeys hname
      (Decidable.byContradiction fun hother ↦ hdiffer (hagree.get? hother))

/-- A bonus with an identity that a formula could call it by. -/
def bonus : Parameter :=
  { id := "extra-pay", name := "Bonus" }

/-- A fee that depends on a rate and not on the bonus. -/
def fees : Solution where
  parameters := [{ id := "1", name := "Base Rate" }, bonus]
  calculations := [{ id := "fee", name := "Fee", formula := "base rate * 2 + Base_Rate" }]

/-- The fee is the same for all bonuses. -/
theorem preview_fees :
    "extra-pay" ∈ Ledger.parameterKeys bonus ∧
      bonus.id ∉ usedParameterIds fees.parameters fees.calculations ∧
      preview .standard fees [("1", .number 3), (bonus.id, .number 5)]
          "base rate * 2 + Base_Rate" =
        preview .standard fees [("1", .number 3), (bonus.id, .number 7)]
          "base rate * 2 + Base_Rate" := by
  have hformulas : (fees.calculations.all fun calculation ↦
      calculation.formula.toList.all fun character ↦ character.toNat < 128) = true := by
    decide +kernel
  have hparameters : (fees.parameters.all fun parameter ↦
      (Ledger.parameterKeys parameter).all fun key ↦ hasPlainEdges key.toList) = true := by
    decide +kernel
  have hcalculations : (fees.calculations.all fun calculation ↦
      (aliases calculation.name).all fun key ↦ hasPlainEdges key.toList) = true := by
    decide +kernel
  simp only [List.all_eq_true, decide_eq_true_eq] at hformulas hparameters hcalculations
  have hwords : fees.HasPlainWords :=
    ⟨hformulas, fun parameter hmember key hkey _ _ ↦ hparameters parameter hmember key hkey,
      fun calculation hmember key hkey _ _ ↦ hcalculations calculation hmember key hkey⟩
  have habsent : ∀ key ∈ Ledger.parameterKeys bonus, key ∉ [bonus.name, identifier bonus.name] →
      ∀ calculation ∈ fees.calculations,
        occursIn key.toList calculation.formula.toList = false := by decide +kernel
  have hunused : bonus.id ∉ usedParameterIds fees.parameters fees.calculations := by
    decide +kernel
  have hothers : ∀ id, id ≠ bonus.id →
      Overrides.find? [("1", .number 3), (bonus.id, .number 5)] id =
        Overrides.find? [("1", .number 3), (bonus.id, .number 7)] id := by
    intro id hid
    have hother : (id == bonus.id) = false := beq_eq_false_iff_ne.mpr hid
    simp only [Overrides.find?, List.lookup_cons, hother]
  refine ⟨by decide +kernel, hunused, preview_eq_of_unused hwords (by decide +kernel)
    (List.mem_cons_of_mem _ List.mem_cons_self) (by decide +kernel) ?_
    (by decide +kernel) hunused hothers .standard _ List.mem_cons_self⟩
  rintro key hkey hother calculation hcalculation ⟨front, back, hsplit, -, -⟩
  have hoccurs := (occursIn_iff _ _).mpr ⟨front, back, hsplit.trans (List.append_assoc ..).symm⟩
  exact Bool.false_ne_true ((habsent key hkey hother calculation hcalculation).symm.trans hoccurs)

/-- A share whose formula calls its only parameter by the identity of that one. -/
def shares : Solution where
  parameters := [{ id := "unit_price", name := "Tariff" }]
  calculations := [{ id := "share", name := "Share", formula := "1 / unit_price" }]

/-- The parameter of the share counts as unused, and yet the share depends on it. -/
theorem preview_shares :
    (shares.parameters.map (·.id)).Nodup ∧
      "unit_price" ∉ usedParameterIds shares.parameters shares.calculations ∧
        preview .standard shares [("unit_price", .number 0)] "1 / unit_price" ≠
          preview .standard shares [("unit_price", .number 4)] "1 / unit_price" := by
  refine ⟨by decide +kernel, by decide +kernel, fun hsame ↦ ?_⟩
  have hnone : (preview .standard shares [("unit_price", .number 0)] "1 / unit_price").toOption =
      none := by decide +kernel
  rw [hsame] at hnone
  have hfound : (substitutedValue (.ofSolution shares [("unit_price", .number 4)])
      "1 / unit_price").toOption.any Float.isFinite = true := by decide +kernel
  have hself : mentionsItself "1 / unit_price" = false := by decide +kernel
  rw [preview, evaluateIn, hself, if_neg Bool.false_ne_true] at hnone
  cases hvalue : substitutedValue (.ofSolution shares [("unit_price", .number 4)])
      "1 / unit_price" with
  | error error =>
    rw [hvalue] at hfound
    cases hfound
  | ok value =>
    rw [hvalue] at hfound hnone
    have hfinite : value.isFinite = true := hfound
    simp [hfinite, Except.toOption] at hnone

end Formulary
