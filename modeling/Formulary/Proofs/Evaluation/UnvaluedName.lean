import Formulary.Proofs.Evaluation.EvaluationByLookup
import Formulary.Proofs.Formula.OperandName
import Formulary.Proofs.Name.IdentifierText
import Formulary.Proofs.Recalculation.FixedPoint

/-!
# Names without a value

A formula that reads a declared name without a value fails, `preview_of_unvalued`. The name is no
word of the ledger, so the substitution of the other values leaves it in its place, where it is read
again, or the new text is not read at all; and a tree with a name that is neither at hand nor a
constant has no value, `exists_error_of_mem_names`. The capital constants are the exception: they
are no reserved words, so a name may be one of them, and the formula then has a value.
-/

set_option autoImplicit false
set_option relaxedAutoImplicit false

namespace Formulary.Formula

open Formulary.Name

variable {lookUp : String → Option Float} {name : String}

/-! ### Trees with unknown names -/

mutual

/-- A tree that reads a name that is neither at hand nor a constant has no value. -/
theorem exists_error_of_mem_names (hnone : lookUp name = none) (hconstant : constant? name = none)
    (tree : Expression) (hname : name ∈ tree.names) :
    ∃ error, tree.evaluate lookUp = .error error := by
  cases tree with
  | number value => cases hname
  | name text =>
    obtain rfl := List.mem_singleton.mp hname
    rw [Expression.evaluate, nameValue, hnone, hconstant]
    exact ⟨_, rfl⟩
  | signed sign operand =>
    obtain ⟨error, herror⟩ := exists_error_of_mem_names hnone hconstant operand hname
    exact ⟨error, by rw [Expression.evaluate, herror]⟩
  | binary operator left right =>
    rw [Expression.evaluate]
    rcases List.mem_append.mp hname with hleft | hright
    · obtain ⟨error, herror⟩ := exists_error_of_mem_names hnone hconstant left hleft
      exact ⟨error, by rw [herror]⟩
    · obtain ⟨error, herror⟩ := exists_error_of_mem_names hnone hconstant right hright
      cases left.evaluate lookUp with
      | error other => exact ⟨other, rfl⟩
      | ok value => exact ⟨error, by rw [herror]⟩
  | call function arguments =>
    obtain ⟨error, herror⟩ := exists_error_of_mem_namesAll hnone hconstant arguments hname
    exact ⟨error, by rw [Expression.evaluate, herror]⟩

theorem exists_error_of_mem_namesAll (hnone : lookUp name = none)
    (hconstant : constant? name = none) (trees : List Expression)
    (hname : name ∈ namesAll trees) : ∃ error, evaluateAll lookUp trees = .error error := by
  cases trees with
  | nil => cases hname
  | cons first rest =>
    rw [evaluateAll]
    rcases List.mem_append.mp hname with hfirst | hrest
    · obtain ⟨error, herror⟩ := exists_error_of_mem_names hnone hconstant first hfirst
      exact ⟨error, by rw [herror]⟩
    · obtain ⟨error, herror⟩ := exists_error_of_mem_namesAll hnone hconstant rest hrest
      cases first.evaluate lookUp with
      | error other => exact ⟨other, rfl⟩
      | ok value => exact ⟨error, by rw [herror]⟩

end

/-- The capital constants are the only ones that are no reserved words. -/
theorem constant?_eq_none (hreserved : name ∉ reservedWords) (hpi : name ≠ "PI")
    (he : name ≠ "E") : constant? name = none := by
  unfold constant?
  split
  · exact absurd (by decide +kernel) hreserved
  · exact absurd rfl hpi
  · exact absurd (by decide +kernel) hreserved
  · exact absurd rfl he
  · rfl

end Formulary.Formula

namespace Formulary

open Formulary.Formula Formulary.Name Formulary.Text

variable {solution : Solution} {overrides : Overrides} {name key : String}

/-! ### Words of the ledger -/

/-- The aliases of an identifier are plain throughout. -/
theorem all_plain_of_mem_aliases (hname : isIdentifier name.toList = true)
    (hkey : key ∈ aliases name) : key.toList.all isPlainCharacter = true := by
  rw [isIdentifier, Bool.and_eq_true] at hname
  have hcollapsed {inClass : Char → Bool} :
      ∀ character ∈ collapseRuns inClass '_' name.toList, isPlainCharacter character = true := by
    intro character hcharacter
    rcases mem_collapseFrom hcharacter with rfl | ⟨hmember, -⟩
    · decide
    · exact List.all_eq_true.mp hname.2 character hmember
  simp only [aliases, List.mem_cons, List.not_mem_nil, or_false] at hkey
  rcases hkey with rfl | rfl | rfl
  · exact hname.2
  · rw [identifier, String.toList_ofList, List.all_eq_true]
    exact fun character hcharacter ↦ hcollapsed character (mem_strip hcharacter)
  · rw [underscored, String.toList_ofList, List.all_eq_true]
    exact hcollapsed

/-- Whether a record with a value answers to a word: a parameter with a number or a calculation with
a finite result, by its name or another alias of it. -/
def Solution.IsValued (solution : Solution) (overrides : Overrides) (key : String) : Prop :=
  (∃ parameter ∈ solution.parameters,
      (Ledger.parameterValue overrides parameter).isSome = true ∧ key ∈ aliases parameter.name) ∨
    ∃ calculation ∈ solution.calculations,
      calculation.priorResult.isSome = true ∧ key ∈ aliases calculation.name

/-- The words of a ledger are aliases of records with values, if no identity of a parameter starts
like a word. -/
theorem isValued_of_get?_ofSolution
    (hids : ∀ parameter ∈ solution.parameters, parameter.id.toList.head?.any isNameStart = false)
    {value : Float} (hvalue : (Ledger.ofSolution solution overrides).get? key = some value) :
    solution.IsValued overrides key := by
  have hfinite : ∀ result ∈ solution.calculations.filterMap Calculation.namedResult,
      result.2.isFinite = true := fun result hmember ↦ (exists_calculation_of_namedResult hmember).1
  rw [ofSolution_eq_withResults] at hvalue
  rcases Ledger.of_get?_withResults hfinite hvalue with hparameter | ⟨result, hmember, hanswers, -⟩
  · rw [Ledger.get?_ofParameters_eq_findSome?] at hparameter
    obtain ⟨parameter, hmember, hhere⟩ := List.exists_of_findSome?_eq_some hparameter
    split at hhere
    · rename_i hkey
      refine Or.inl ⟨parameter, hmember, by rw [hhere]; rfl, ?_⟩
      have hwords : Ledger.parameterKeys parameter =
          [parameter.name, identifier parameter.name] := by
        rw [Ledger.parameterKeys, hids parameter hmember]
        rfl
      rw [hwords] at hkey
      exact List.mem_append_left [underscored parameter.name] hkey.1
    · cases hhere
  · obtain ⟨-, calculation, hcalculation, hname, hprior⟩ :=
      exists_calculation_of_namedResult hmember
    rw [hname] at hanswers
    exact Or.inr ⟨calculation, hcalculation, by rw [hprior]; rfl, hanswers.1⟩

theorem Solution.IsValued.exists_alias (hvalued : solution.IsValued overrides key) :
    ∃ declared ∈ solution.declaredNames, key ∈ aliases declared := by
  rcases hvalued with ⟨parameter, hmember, -, hkey⟩ | ⟨calculation, hmember, -, hkey⟩
  · exact ⟨_, List.mem_append_left _ (List.mem_map_of_mem hmember), hkey⟩
  · exact ⟨_, List.mem_append_right _ (List.mem_map_of_mem hmember), hkey⟩

/-! ### Formulas with names without values -/

/-- A formula that reads a word that a ledger of plain words does not know has no value with the
ledger, if the word is an identifier but no constant, and no function carries the prefix. -/
theorem exists_error_of_unknown {ledger : Ledger} {formula : String} {tree : Expression}
    (hkeys : ∀ key value, ledger.get? key = some value → key.toList.all isPlainCharacter = true)
    (hbare : occursIn "Math.".toList formula.toList = false)
    (hparse : parse formula.toList = .ok tree) (hname : name ∈ tree.names)
    (hidentifier : isIdentifier name.toList = true) (hmath : name ≠ "Math")
    (hunknown : ledger.get? name = none) (hconstant : constant? name = none) :
    ∃ error, substitutedValue ledger formula = .error error := by
  have hmath' : name.toList ≠ functionPrefix := fun h ↦ hmath (String.toList_inj.mp h)
  have hunprefixed : ¬(functionPrefix ++ ['.']) <:+: formula.toList := by
    rintro ⟨front, back, hsplit⟩
    rw [← Bool.not_eq_true, occursIn_iff] at hbare
    exact hbare ⟨front, back, hsplit.symm⟩
  have hrules : ArePlain ledger.substitution.rules := by
    intro rule hrule
    obtain ⟨hblank, value, hvalue, -⟩ := Ledger.mem_substitution_rules_iff.mp hrule
    refine ⟨?_, by simpa using hkeys _ value hvalue⟩
    rintro hnone
    rw [hnone] at hblank
    cases hblank
  have hnone : ∀ rule ∈ ledger.substitution.rules, rule.name ≠ name.toList := by
    intro rule hrule hsame
    obtain ⟨-, value, hvalue, -⟩ := Ledger.mem_substitution_rules_iff.mp hrule
    rw [hsame, String.ofList_toList, hunknown] at hvalue
    cases hvalue
  obtain ⟨hstart, hplain⟩ := (Bool.and_eq_true _ _).mp hidentifier
  have hnonempty : name.toList ≠ [] := by
    intro hempty
    rw [hempty] at hstart
    cases hstart
  -- the name is an operand of the formula, stays one in the new text and so is read from it
  obtain ⟨tokens, htokens, -, hderives⟩ := (denotes_iff_parse_eq_ok _ tree).mpr hparse
  have hspells := spells_iff_ofText.mpr ⟨tokens, htokens, rfl⟩
  have hstands : StandsAsOperand name.toList formula.toList :=
    hspells.standsAsOperand hderives.isChain hunprefixed (by rwa [hderives.operandNames_eq])
  have hreplaces :=
    replaces_replaceFrom (fun rule hrule ↦ (hrules rule hrule).1) none formula.toList
  have hleft := hreplaces.standsAsOperand hrules hnonempty hplain hnone hstands
  rw [substitutedValue]
  cases hnew : parse (ledger.substitution.replace formula.toList) with
  | error error => exact ⟨_, rfl⟩
  | ok other =>
    obtain ⟨written, hwritten, -, hagain⟩ := (denotes_iff_parse_eq_ok _ other).mpr hnew
    have hread := (spells_iff_ofText.mpr ⟨written, hwritten, rfl⟩).mem_operandNames hidentifier
      hmath' hleft
    rw [hagain.operandNames_eq, String.ofList_toList] at hread
    exact exists_error_of_mem_names hunknown hconstant other hread

/-- A formula that reads a declared name without a value fails, whatever the other values are. The
declared names are identifiers and no reserved words, no identity of a parameter starts like a word,
no function of the formula carries the prefix, no record with a value answers to the name, and the
name is none of the capital constants. -/
theorem preview_of_unvalued {formula : String} {tree : Expression}
    (hnames : ∀ declared ∈ solution.declaredNames,
      isIdentifier declared.toList = true ∧ declared ∉ reservedWords)
    (hids : ∀ parameter ∈ solution.parameters, parameter.id.toList.head?.any isNameStart = false)
    (hbare : occursIn "Math.".toList formula.toList = false)
    (hparse : parse formula.toList = .ok tree) (hname : name ∈ tree.names)
    (hdeclared : name ∈ solution.declaredNames) (hunvalued : ¬solution.IsValued overrides name)
    (hpi : name ≠ "PI") (he : name ≠ "E") (settings : Settings) :
    Outcome.ofEvaluation (preview settings solution overrides formula) = .failure := by
  obtain ⟨hidentifier, hreserved⟩ := hnames name hdeclared
  have hkeys : ∀ key value, (Ledger.ofSolution solution overrides).get? key = some value →
      key.toList.all isPlainCharacter = true := by
    intro key value hvalue
    obtain ⟨declared, hmember, hkey⟩ := (isValued_of_get?_ofSolution hids hvalue).exists_alias
    exact all_plain_of_mem_aliases (hnames declared hmember).1 hkey
  have hunknown : (Ledger.ofSolution solution overrides).get? name = none :=
    Option.eq_none_iff_forall_ne_some.mpr fun value hvalue ↦
      hunvalued (isValued_of_get?_ofSolution hids hvalue)
  have hmath : name ≠ "Math" := by
    rintro rfl
    exact hreserved (by decide +kernel)
  obtain ⟨error, herror⟩ := exists_error_of_unknown hkeys hbare hparse hname hidentifier hmath
    hunknown (constant?_eq_none hreserved hpi he)
  rw [preview, evaluateIn, herror]
  split <;> rfl

/-- The energy that a household takes, of which the price is not known. -/
def energy : Solution where
  parameters :=
    [{ id := "1", name := "Price" }, { id := "2", name := "Hours", testValue := some (.number 8) }]
  calculations := []

/-- A product with a price that is not known fails. -/
theorem preview_energy :
    ∃ tree, parse "Price * Hours".toList = .ok tree ∧ "Price" ∈ tree.names ∧
      "Price" ∈ energy.declaredNames ∧ ¬energy.IsValued [] "Price" ∧
      Outcome.ofEvaluation (preview .standard energy [] "Price * Hours") = .failure := by
  have hparse : parse "Price * Hours".toList =
      .ok (.binary .multiply (.name "Price") (.name "Hours")) := rfl
  have hnames : ∀ declared ∈ energy.declaredNames,
      isIdentifier declared.toList = true ∧ declared ∉ reservedWords := by decide +kernel
  have hids : ∀ parameter ∈ energy.parameters,
      parameter.id.toList.head?.any isNameStart = false := by decide +kernel
  have hunvalued : ¬energy.IsValued [] "Price" := by
    rintro (hparameter | ⟨calculation, hmember, -⟩)
    · revert hparameter
      decide +kernel
    · cases hmember
  refine ⟨_, hparse, by simp [Expression.names], by decide +kernel, hunvalued, ?_⟩
  exact preview_of_unvalued hnames hids (by decide +kernel) hparse (by simp [Expression.names])
    (by decide +kernel) hunvalued (by decide) (by decide) .standard

/-- A parameter without a value that has the name of a capital constant. -/
def efficiency : Solution where
  parameters := [{ id := "1", name := "E" }]
  calculations := []

/-- The name is no reserved word, and yet the formula has the value of the constant. -/
theorem preview_efficiency :
    (∃ tree, parse "E".toList = .ok tree ∧ "E" ∈ tree.names) ∧
      "E" ∈ efficiency.declaredNames ∧
      (∀ declared ∈ efficiency.declaredNames,
        isIdentifier declared.toList = true ∧ declared ∉ reservedWords) ∧
      (∀ parameter ∈ efficiency.parameters,
        parameter.id.toList.head?.any isNameStart = false) ∧
      ¬efficiency.IsValued [] "E" ∧
      Outcome.ofEvaluation (preview .standard efficiency [] "E") ≠ .failure := by
  have hparse : parse "E".toList = .ok (.name "E") := rfl
  have hunvalued : ¬efficiency.IsValued [] "E" := by
    rintro (hparameter | ⟨calculation, hmember, -⟩)
    · revert hparameter
      decide +kernel
    · cases hmember
  have hfound : (substitutedValue (.ofSolution efficiency []) "E").toOption.any
      Float.isFinite = true := by decide +kernel
  have hself : mentionsItself "E" = false := by decide +kernel
  refine ⟨⟨_, hparse, by simp [Expression.names]⟩, by decide +kernel, by decide +kernel,
    by decide +kernel, hunvalued, ?_⟩
  rw [preview, evaluateIn, hself, if_neg Bool.false_ne_true]
  cases hvalue : substitutedValue (.ofSolution efficiency []) "E" with
  | error error =>
    rw [hvalue] at hfound
    cases hfound
  | ok value =>
    rw [hvalue] at hfound
    have hfinite : value.isFinite = true := hfound
    simp [hfinite, Outcome.ofEvaluation]

end Formulary
