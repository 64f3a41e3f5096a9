import Formulary.Proofs.Ledger.Keys
import Formulary.Proofs.Name.PlainAlias
import Formulary.Proofs.References.EvaluationOrder

/-!
# Solutions with plain names

`Solution.WordsApart` collects what lets the words of a solution be told apart: ASCII formulas,
words of parameters with plain edges, plain names of calculations, calculations that share no word,
and a value for each parameter that takes a word from a calculation. `Solution.HasPlainNames` says
so of the names alone. Where words are apart, a formula refers to every calculation whose words
stand in it, `refersTo_of_standsIn`.
-/

set_option autoImplicit false
set_option relaxedAutoImplicit false

namespace Formulary

open Formulary.Name Formulary.Number Formulary.Text

/-- A solution whose words can be told apart, when a user has entered some values: formulas are
ASCII, names are plain, identities start and end with a letter or a digit, no two calculations share
a word, no name of a calculation has a border, and a parameter whose name or identifier is also a
word of a calculation has a value. -/
structure Solution.HasPlainNames (solution : Solution) (overrides : Overrides) : Prop where
  formulas : ∀ calculation ∈ solution.calculations,
    ∀ character ∈ calculation.formula.toList, character.toNat < 128
  parameters : ∀ parameter ∈ solution.parameters, isPlainName parameter.name.toList = true
  identities : ∀ parameter ∈ solution.parameters,
    parameter.id.toList.head?.any isAlphanumeric = true ∧
      parameter.id.toList.getLast?.any isAlphanumeric = true
  calculations : ∀ calculation ∈ solution.calculations,
    isPlainName calculation.name.toList = true ∧ isBorderless calculation.name.toList = true
  apart : solution.calculations.Pairwise fun first second ↦
    ∀ word ∈ aliases first.name, word ∉ aliases second.name
  valued : ∀ parameter ∈ solution.parameters, ∀ calculation ∈ solution.calculations,
    parameter.name ∈ aliases calculation.name ∨
      identifier parameter.name ∈ aliases calculation.name →
    (Ledger.parameterValue overrides parameter).isSome = true

/-- A solution whose words can be told apart, when a user has entered some values: formulas are
ASCII, the ASCII words of parameters have plain edges, names of calculations are plain and have no
border, no two calculations share a word, and a parameter whose name or identifier is also a word of
a calculation has a value. -/
structure Solution.WordsApart (solution : Solution) (overrides : Overrides) : Prop where
  formulas : ∀ calculation ∈ solution.calculations,
    ∀ character ∈ calculation.formula.toList, character.toNat < 128
  parameters : ∀ parameter ∈ solution.parameters, ∀ key ∈ Ledger.parameterKeys parameter,
    (∀ character ∈ key.toList, character.toNat < 128) → hasPlainEdges key.toList = true
  calculations : ∀ calculation ∈ solution.calculations,
    isPlainName calculation.name.toList = true ∧ isBorderless calculation.name.toList = true
  apart : solution.calculations.Pairwise fun first second ↦
    ∀ word ∈ aliases first.name, word ∉ aliases second.name
  valued : ∀ parameter ∈ solution.parameters, ∀ calculation ∈ solution.calculations,
    parameter.name ∈ aliases calculation.name ∨
      identifier parameter.name ∈ aliases calculation.name →
    (Ledger.parameterValue overrides parameter).isSome = true

variable {parameters : List Parameter} {calculations : List Calculation} {overrides : Overrides}

/-! ### The words of parameters -/

/-- An ASCII text that starts and ends with a letter or a digit has plain edges. -/
theorem hasPlainEdges_of_isAlphanumeric {text : List Char}
    (hfirst : text.head?.any isAlphanumeric = true)
    (hlast : text.getLast?.any isAlphanumeric = true)
    (hascii : ∀ character ∈ text, character.toNat < 128) : hasPlainEdges text = true := by
  have hplain (character : Char) (hmember : character ∈ text)
      (hclass : isAlphanumeric character = true) : isPlainCharacter character = true := by
    rw [← isNameCharacter_of_ascii _ (hascii character hmember), isNameCharacter, hclass,
      Bool.true_or]
  rw [hasPlainEdges, Bool.and_eq_true]
  exact ⟨any_imp (fun character hhead ↦ hplain character (List.mem_of_mem_head? hhead)) hfirst,
    any_imp (fun character hend ↦ hplain character (List.mem_of_mem_getLast? hend)) hlast⟩

/-- Writing underscores for hyphens keeps what is of a class without the hyphen. -/
theorem any_map_of_no_hyphen {inClass : Char → Bool} (hhyphen : inClass '-' = false)
    {character? : Option Char} (hany : character?.any inClass = true) :
    (character?.map fun character ↦ if character = '-' then '_' else character).any inClass =
      true := by
  rw [Option.any_map]
  refine any_imp (fun character _ hclass ↦ ?_) hany
  have hother : character ≠ '-' := by
    rintro rfl
    exact Bool.false_ne_true (hhyphen.symm.trans hclass)
  rw [if_neg hother, hclass]

/-- The ASCII words of a parameter have plain edges. -/
theorem hasPlainEdges_of_mem_parameterKeys {parameter : Parameter}
    (hname : isPlainName parameter.name.toList = true)
    (hfirst : parameter.id.toList.head?.any isAlphanumeric = true)
    (hlast : parameter.id.toList.getLast?.any isAlphanumeric = true) {key : String}
    (hkey : key ∈ Ledger.parameterKeys parameter)
    (hascii : ∀ character ∈ key.toList, character.toNat < 128) :
    hasPlainEdges key.toList = true := by
  rw [Ledger.parameterKeys, List.mem_append] at hkey
  rcases hkey with hnamed | hidentity
  · simp only [List.mem_cons, List.not_mem_nil, or_false] at hnamed
    exact (plainAlias_of_mem_aliases hname (by simp [aliases, ← or_assoc, hnamed])).edges
  · split at hidentity
    · simp only [List.mem_cons, List.not_mem_nil, or_false] at hidentity
      rcases hidentity with rfl | rfl
      · exact hasPlainEdges_of_isAlphanumeric hfirst hlast hascii
      · rw [String.toList_ofList] at hascii ⊢
        refine hasPlainEdges_of_isAlphanumeric ?_ ?_ hascii
        · rw [List.head?_map]
          exact any_map_of_no_hyphen (by decide +kernel) hfirst
        · rw [List.getLast?_map]
          exact any_map_of_no_hyphen (by decide +kernel) hlast
    · cases hidentity

/-- Plain names keep the words of a solution apart. -/
theorem Solution.HasPlainNames.wordsApart {solution : Solution}
    (hnames : solution.HasPlainNames overrides) : solution.WordsApart overrides where
  formulas := hnames.formulas
  parameters parameter hparameter key hkey := by
    obtain ⟨hfirst, hlast⟩ := hnames.identities parameter hparameter
    exact hasPlainEdges_of_mem_parameterKeys (hnames.parameters parameter hparameter) hfirst hlast
      hkey
  calculations := hnames.calculations
  apart := hnames.apart
  valued := hnames.valued

/-! ### The words of calculations -/

variable (hapart : (Solution.mk parameters calculations).WordsApart overrides)

include hapart

/-- Calculations at different positions share no word. -/
theorem position_eq_of_mem_aliases {first second : Nat} {one two : Calculation}
    (hfirst : calculations[first]? = some one) (hsecond : calculations[second]? = some two)
    {word : String} (hone : word ∈ aliases one.name) (htwo : word ∈ aliases two.name) :
    first = second := by
  have hpairs := List.pairwise_iff_getElem.mp hapart.apart
  obtain ⟨hfirstLength, rfl⟩ := List.getElem?_eq_some_iff.mp hfirst
  obtain ⟨hsecondLength, rfl⟩ := List.getElem?_eq_some_iff.mp hsecond
  rcases Nat.lt_trichotomy first second with hless | hsame | hgreater
  · exact absurd htwo (hpairs first second hfirstLength hsecondLength hless word hone)
  · exact hsame
  · exact absurd hone (hpairs second first hsecondLength hfirstLength hgreater word htwo)

/-- A word of a calculation that is not the word of a parameter with a value is none of the words
that belong to parameters. -/
theorem not_mem_parameterWords {dependency : Calculation} (hdependency : dependency ∈ calculations)
    {key : String} (hanswers : Ledger.Answers dependency.name key)
    (hfree : (Ledger.ofParameters parameters overrides).isParameterKey key = false) :
    key ∉ parameterWords parameters := by
  intro htaken
  obtain ⟨parameter, hparameter, hword⟩ := List.mem_flatMap.mp htaken
  have hshared : parameter.name ∈ aliases dependency.name ∨
      identifier parameter.name ∈ aliases dependency.name := by
    simp only [List.mem_cons, List.not_mem_nil, or_false] at hword
    rcases hword with rfl | rfl
    · exact Or.inl hanswers.1
    · exact Or.inr hanswers.1
  refine Bool.false_ne_true (hfree.symm.trans ?_)
  refine (Ledger.isParameterKey_ofParameters parameters overrides key).mpr
    ⟨parameter, hparameter, hapart.valued parameter hparameter dependency hdependency hshared, ?_,
      hanswers.2⟩
  exact List.mem_append_left _ hword

/-- A formula refers to each calculation of which a word stands in it, unless a parameter answers to
the word. -/
theorem refersTo_of_standsIn {consumer dependency : Calculation}
    (hconsumer : consumer ∈ calculations) (hdependency : dependency ∈ calculations) {key : String}
    (hanswers : Ledger.Answers dependency.name key)
    (hfree : (Ledger.ofParameters parameters overrides).isParameterKey key = false)
    (hstands : StandsIn key.toList consumer.formula.toList) :
    refersTo (parameterWords parameters) consumer.formula dependency.name = true := by
  obtain ⟨hplain, hborderless⟩ := hapart.calculations dependency hdependency
  have halias := plainAlias_of_mem_aliases hplain hanswers.1
  have hblank : isBlankName dependency.name = false :=
    isBlank_of_hasPlainEdges (plainAlias_of_mem_aliases hplain List.mem_cons_self).edges
  have hcontains : containsWord consumer.formula key = true := by
    refine containsWord_of_standsIn (hapart.formulas consumer hconsumer) halias.edges ?_ hstands
    rcases halias.plain with hself | hall
    · exact Or.inr (by rw [hself, hborderless])
    · exact Or.inl hall
  have htaken := not_mem_parameterWords hapart hdependency hanswers hfree
  rw [refersTo, hblank, Bool.not_false, Bool.true_and, List.any_eq_true]
  exact ⟨key, hanswers.1, by simp [hanswers.2, htaken, hcontains]⟩

end Formulary
