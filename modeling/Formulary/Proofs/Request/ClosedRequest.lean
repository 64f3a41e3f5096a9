import Formulary.Proofs.Name.LetterCase
import Formulary.Proofs.Registry.RewrittenFormula
import Formulary.Proofs.Request.Nodes

/-!
# Requests of reviewed solutions

A review resolves the candidates of a formula whatever the letter case, while a request writes them
as they stand. So in the request of a solution without findings, each name of a formula that starts
with a letter is a reserved word or, up to letter case, the name of a node, which is
`names_closed_of_reviewed`. Up to letter case only: `not_closed_prices` is a solution without
findings whose request names what no node is called.
-/

set_option autoImplicit false
set_option relaxedAutoImplicit false

namespace Formulary

open Formulary.Formula Formulary.Name Formulary.Text

variable {settings : Settings} {solution : Solution} {overrides : Overrides} {token : String}

/-! ### What a review without findings says -/

/-- A token that is resolved is, up to letter case, the identifier of a declared name. -/
theorem exists_declared_of_isResolved
    (hnames : ∀ name ∈ solution.declaredNames, isRun name.toList = true)
    (htoken : isRun token.toList = true) (hresolved : isResolved solution token = true) :
    ∃ name ∈ solution.declaredNames,
      lower (identifier token).toList = lower (identifier name).toList := by
  obtain ⟨tier, htier, name, hname, hmatches⟩ := (isResolved_iff token).mp hresolved
  exact ⟨name, hname, lower_identifier_eq_of_matches htier htoken (hnames name hname) hmatches⟩

/-- A calculation of a solution without findings has a formula that can be parsed when it is
rewritten, and all candidates of the formula are resolved. -/
theorem of_reviewSolution_eq_nil (hreview : reviewSolution .standard solution = [])
    {calculation : Calculation} (hcalculation : calculation ∈ solution.calculations) :
    ∃ formula tree, calculation.formulaText = some formula ∧
      parse ((solution.registry []).substitution.replace formula.toList) = .ok tree ∧
        ∀ token ∈ candidates calculation.formula [], isResolved solution token = true := by
  have hformulas : reviewFormulas [] solution = [] :=
    (List.append_eq_nil_iff.mp (List.append_eq_nil_iff.mp hreview).1).2
  obtain ⟨hfault, hnamed⟩ := reviewFormulas_eq_nil_iff.mp hformulas calculation hcalculation
  obtain ⟨hblank, tree, hparse⟩ := syntaxFault_eq_none_iff.mp hfault
  refine ⟨_, tree, formulaText_of_isBlank_eq_false hblank, ?_, fun token htoken ↦ ?_⟩
  · rwa [String.toList_ofList]
  · exact (isResolved_iff token).mpr (hnamed token htoken)

/-! ### Nodes -/

/-- Every declared name of a solution without filters has a node, if all calculations have a
formula. -/
theorem exists_node_of_mem_declaredNames
    (hfilters : ∀ parameter ∈ solution.parameters, parameter.isFilter = false)
    (hformulas : ∀ calculation ∈ solution.calculations, calculation.formulaText.isSome = true)
    {name : String} (hname : name ∈ solution.declaredNames) :
    ∃ node ∈ (requestOf settings solution overrides).nodes, node.name = identifier name := by
  rcases List.mem_append.mp hname with hparameter | hcalculation
  · obtain ⟨parameter, hmember, rfl⟩ := List.mem_map.mp hparameter
    obtain ⟨hnode, -⟩ := mem_nodes_of_ne_calculation_iff.mpr
      ⟨parameter, hmember, hfilters parameter hmember, rfl⟩
    exact ⟨_, hnode, rfl⟩
  · obtain ⟨calculation, hmember, rfl⟩ := List.mem_map.mp hcalculation
    obtain ⟨formula, hformula⟩ := Option.isSome_iff_exists.mp (hformulas calculation hmember)
    exact ⟨_, calculationNode_mem_nodes hmember hformula, rfl⟩

/-! ### The names of a rewritten formula -/

/-- The names of a rewritten formula that start with a letter are reserved words or identifiers of
candidates of the formula. -/
theorem mem_or_exists_candidate_of_mem_names
    (hnames : ∀ name ∈ solution.declaredNames, isRun name.toList = true)
    {calculation : Calculation} (hcalculation : calculation ∈ solution.calculations)
    (hascii : ∀ character ∈ calculation.formula.toList, character.toNat < 128)
    {formula : String} (hformula : calculation.formulaText = some formula) {tree : Expression}
    (hparse : parse ((solution.registry []).substitution.replace formula.toList) = .ok tree)
    {leaf : String} (hleaf : leaf ∈ tree.names)
    (hfirst : leaf.toList.head?.any isAsciiLetter = true) :
    leaf ∈ reservedWords ∨ ∃ token ∈ candidates calculation.formula [],
      isRun token.toList = true ∧ leaf = identifier token := by
  have htrimmed : formula.toList = trim calculation.formula.toList := by
    rw [Calculation.formulaText, trimmedText] at hformula
    split at hformula
    · cases hformula
    · rw [← Option.some.inj hformula, String.toList_ofList]
  have hruns : runs formula.toList = runs calculation.formula.toList := by
    rw [htrimmed, runs_trim]
  have hbehind : ∀ character ∈ formula.toList, character.toNat < 128 := by
    intro character hcharacter
    rw [htrimmed, trim, trimEnd, List.mem_reverse] at hcharacter
    have hrest := List.mem_reverse.mp ((List.dropWhile_suffix isWhiteSpace).subset hcharacter)
    exact hascii character ((List.dropWhile_suffix isWhiteSpace).subset hrest)
  have hcut := dissects_pieces formula.toList
  have hregistered : ∀ word before, .run word ∈ pieces formula.toList →
      isKept before word = false →
        ⟨word, identifierCharacters word⟩ ∈ (solution.registry []).substitution.rules :=
    fun word before hword hkept ↦ Solution.HasFormula.mem_rules
      (Or.inr ⟨calculation, hcalculation, rfl⟩) (hruns ▸ mem_runs_of_mem_pieces hword) hkept
  have hrules := identifying_registry hnames
  have hnone : ∀ character ∈ (none : Option Char), character.toNat < 128 :=
    fun _ hmember ↦ absurd hmember (Option.not_mem_none _)
  have hapart := digitsApart_of_hasNoGaps hrules hcut (fun _ _ _ ↦ rfl) hnone hbehind hregistered
    (hasNoGaps_of_parse hparse)
  have hwritten : (solution.registry []).substitution.replace formula.toList =
      normalizedFrom none (pieces formula.toList) :=
    replaceFrom_eq_normalizedFrom hrules hcut (fun _ _ _ ↦ rfl) hnone hbehind hapart hregistered
  obtain ⟨hletters, front, back, hsplit, hfront, hback⟩ := standsApart_of_mem_names hparse hleaf
  rw [hwritten] at hsplit
  have hplain : leaf.toList.all isPlainCharacter = true := by
    rw [List.all_eq_true] at hletters ⊢
    intro character hcharacter
    have hmember : character ∈ normalizedFrom none (pieces formula.toList) := by
      rw [hsplit]
      exact List.mem_append_right front (List.mem_append_left back hcharacter)
    rw [← isNameCharacter_of_ascii _ (isAscii_normalizedFrom hcut hbehind character hmember)]
    exact hletters character hcharacter
  rw [← Option.or_none (o := front.getLast?)] at hfront
  rcases mem_or_exists_run_of_standsIn hcut hapart hfirst hplain hsplit
    (not_plain_of_not_name hfront) (not_plain_of_not_name hback) with
    hreserved | ⟨word, hword, hkept, hidentifier⟩
  · rw [String.ofList_toList] at hreserved
    exact Or.inl hreserved
  · have hfound := mem_runs_of_mem_pieces hword
    refine Or.inr ⟨String.ofList word, ?_, ?_, ?_⟩
    · rw [candidates, List.mem_filter, ← hruns]
      exact ⟨List.mem_map_of_mem hfound, by simpa using (isKept_eq_false_iff.mp hkept).1⟩
    · rw [String.toList_ofList]
      exact isRun_of_mem_runs hfound
    · rw [identifier, String.toList_ofList, ← hidentifier, String.ofList_toList]

/-! ### Closed requests -/

/-- In the request of a solution without filters and without findings, each calculation has its node
with a formula that can be parsed, and each name in the formula that starts with a letter is a
reserved word or, up to letter case, the name of a node. -/
theorem names_closed_of_reviewed (overrides : Overrides)
    (hascii : ∀ calculation ∈ solution.calculations,
      ∀ character ∈ calculation.formula.toList, character.toNat < 128)
    (hnames : ∀ name ∈ solution.declaredNames, isRun name.toList = true)
    (hfilters : ∀ parameter ∈ solution.parameters, parameter.isFilter = false)
    (hreview : reviewSolution .standard solution = []) :
    ∃ request, (buildRequest .standard solution overrides).result = .ok request ∧
      ∀ calculation ∈ solution.calculations, ∃ text formula tree,
        calculation.formulaText = some text ∧
          calculationNode (solution.registry []).substitution calculation text ∈ request.nodes ∧
          (calculationNode (solution.registry []).substitution calculation text).formula =
            some formula ∧ parse formula.toList = .ok tree ∧
            ∀ leaf ∈ tree.names, leaf.toList.head?.any isAsciiLetter = true →
              leaf ∈ reservedWords ∨
                ∃ node ∈ request.nodes, lower node.name.toList = lower leaf.toList := by
  have hformulas : ∀ calculation ∈ solution.calculations,
      calculation.formulaText.isSome = true := by
    intro calculation hcalculation
    obtain ⟨formula, _, hformula, _⟩ := of_reviewSolution_eq_nil hreview hcalculation
    rw [hformula]
    rfl
  refine ⟨requestOf .standard solution overrides, rfl, fun calculation hcalculation ↦ ?_⟩
  obtain ⟨text, tree, htext, hparse, hresolved⟩ := of_reviewSolution_eq_nil hreview hcalculation
  refine ⟨text, (solution.registry []).substitution.apply text, tree, htext,
    calculationNode_mem_nodes hcalculation htext, rfl, ?_, ?_⟩
  · rw [Substitution.apply, String.toList_ofList]
    exact hparse
  · intro leaf hleaf hfirst
    refine (mem_or_exists_candidate_of_mem_names hnames hcalculation
      (hascii calculation hcalculation) htext hparse hleaf hfirst).imp_right ?_
    rintro ⟨token, htoken, hrun, rfl⟩
    obtain ⟨name, hname, hsame⟩ :=
      exists_declared_of_isResolved hnames hrun (hresolved token htoken)
    obtain ⟨node, hnode, hcalled⟩ := exists_node_of_mem_declaredNames hfilters hformulas hname
    exact ⟨node, hnode, by rw [hcalled, hsame]⟩

/-- A price and a total whose formula writes the name of the price in small letters. -/
def prices : Solution where
  parameters := [{ id := "price", name := "Energy Price", unit := some "EUR" }]
  calculations := [{ id := "total", name := "Total", formula := "max(energy price, pi)" }]

/-- The names in the request for the prices are known up to letter case. -/
theorem names_closed_prices :
    reviewSolution .standard prices = [] ∧
      ∃ request, (buildRequest .standard prices []).result = .ok request ∧
        ∃ node ∈ request.nodes, ∃ formula tree, node.name = "Total" ∧
          node.formula = some formula ∧ parse formula.toList = .ok tree ∧
            ∀ leaf ∈ tree.names, leaf.toList.head?.any isAsciiLetter = true →
              leaf ∈ reservedWords ∨
                ∃ other ∈ request.nodes, lower other.name.toList = lower leaf.toList := by
  have hreview : reviewSolution .standard prices = [] := by decide +kernel
  have hascii : ∀ calculation ∈ prices.calculations,
      ∀ character ∈ calculation.formula.toList, character.toNat < 128 :=
    List.forall_mem_singleton.mpr (isAscii_of_all (by decide +kernel))
  obtain ⟨request, hrequest, hclosed⟩ := names_closed_of_reviewed [] hascii (by decide +kernel)
    (by decide +kernel) hreview
  obtain ⟨text, formula, tree, _, hnode, hformula⟩ := hclosed _ List.mem_cons_self
  have hname : identifier "Total" = "Total" := by decide +kernel
  exact ⟨hreview, request, hrequest, _, hnode, formula, tree, hname, hformula⟩

/-- The request for the prices is not closed, though all names are runs and no parameter is a
filter: a formula in it reads a name that no node has. -/
theorem not_closed_prices :
    (∀ name ∈ prices.declaredNames, isRun name.toList = true) ∧
      (∀ parameter ∈ prices.parameters, parameter.isFilter = false) ∧
      reviewSolution .standard prices = [] ∧
      ∃ request, (buildRequest .standard prices []).result = .ok request ∧
        ∃ node ∈ request.nodes, ∃ formula tree, node.kind = .calculation ∧
          node.formula = some formula ∧ parse formula.toList = .ok tree ∧
            ∃ leaf ∈ tree.names, leaf ∉ reservedWords ∧
              ∀ other ∈ request.nodes, other.name ≠ leaf := by
  refine ⟨by decide +kernel, by decide +kernel, by decide +kernel,
    requestOf .standard prices [], rfl,
    { name := "Total", kind := .calculation, formula := some "max(energy_price, pi)" }, ?_,
    "max(energy_price, pi)", .call "max" [.name "energy_price", .name "pi"], rfl, rfl, ?_,
    "energy_price", ?_, ?_, ?_⟩
  · decide +kernel
  · rfl
  · decide +kernel
  · decide +kernel
  · decide +kernel

end Formulary
