import Formulary.Proofs.Name.CandidateRuns
import Formulary.Proofs.Substitution.Replacement
import Formulary.Solution.Basic

/-!
# The rules of a registry

Each operation of a registry has one look-up lemma: declaring and discovering a name both make it
known by its identifier, if it can be mapped, and change nothing else, `get?_foldl`. Hence the
substitution of a solution has a rule for each mappable name that a record declares or a formula
holds, and the replacement is the identifier of the name, `mem_registry_rules_iff`.
-/

set_option autoImplicit false
set_option relaxedAutoImplicit false

namespace Formulary.Name.Registry

open Formulary.Text

variable {registry : Registry} {name key : String}

/-! ### Look-up -/

/-- A name that is added becomes known by its identifier, unless it is known already. -/
theorem get?_addEntry (registry : Registry) (name key : String) :
    (registry.addEntry name).get? key =
      (registry.get? key).or (if key = name then some (identifier name) else none) := by
  rw [addEntry]
  split
  · rename_i hknown
    by_cases hkey : key = name
    · obtain ⟨entry, hentry, hname⟩ := List.any_eq_true.mp hknown
      obtain ⟨value, hvalue⟩ := Option.isSome_iff_exists.mp
        (List.lookup_isSome_iff.mpr ⟨entry, hentry, BEq.symm hname⟩)
      rw [hkey, get?, hvalue, Option.some_or]
    · rw [if_neg hkey, Option.or_none]
  · simp only [get?, List.lookup_append, List.lookup_singleton, beq_iff_eq]

/-- What a registration of a name adds to the knowledge of a registry. -/
def Adds (add : Registry → String → Registry) : Prop :=
  ∀ registry name key, (add registry name).get? key =
    (registry.get? key).or
      (if key = name ∧ isMappable name = true then some (identifier name) else none)

theorem adds_discover : Adds discover := by
  intro registry name key
  rw [discover]
  split
  · rename_i hmappable
    simp [get?_addEntry, hmappable]
  · rename_i hmappable
    simp [hmappable]

theorem adds_declare : Adds declare := by
  intro registry name key
  rw [declare]
  split
  · rename_i hmappable
    show (registry.addEntry name).get? key = _
    simp [get?_addEntry, hmappable]
  · rename_i hmappable
    simp [hmappable]

/-- After some registrations a registry knows what it knew before and the mappable names among the
new ones. -/
theorem get?_foldl {add : Registry → String → Registry} (hadds : Adds add) (registry : Registry)
    (names : List String) (key : String) :
    (names.foldl add registry).get? key =
      (registry.get? key).or
        (if key ∈ names ∧ isMappable key = true then some (identifier key) else none) := by
  induction names generalizing registry with
  | nil => simp
  | cons name names ih =>
    rw [List.foldl_cons, ih, hadds, Option.or_assoc]
    congr 1
    by_cases hkey : key = name
    · subst hkey
      by_cases hmappable : isMappable key = true <;> simp [hmappable]
    · simp [hkey]

end Formulary.Name.Registry

namespace Formulary.Solution

open Formulary.Name Formulary.Text

/-- The names that a solution registers: those of its records and the candidates of its formulas. -/
def registeredNames (solution : Solution) (reserved : List String) : List String :=
  solution.declaredNames ++ solution.formulas.flatMap fun formula ↦ candidates formula reserved

variable {solution : Solution} {reserved : List String}

/-- The registry of a solution knows the mappable names that the solution registers. -/
theorem get?_registry (solution : Solution) (reserved : List String) (key : String) :
    (solution.registry reserved).get? key =
      if key ∈ solution.registeredNames reserved ∧ Registry.isMappable key = true then
        some (identifier key)
      else none := by
  rw [registry, Registry.get?_foldl Registry.adds_discover,
    Registry.get?_foldl Registry.adds_declare, registeredNames]
  simp only [List.mem_append]
  by_cases hmappable : Registry.isMappable key = true
  · by_cases hdeclared : key ∈ solution.declaredNames <;>
      simp [hmappable, hdeclared, Registry.get?, Registry.empty]
  · simp [hmappable, Registry.get?, Registry.empty]

/-- A name can be mapped if it does not hold separators only. -/
theorem isMappable_iff (name : List Char) : Registry.isMappable (String.ofList name) = true ↔
    isBlank name = false ∧ identifierCharacters name ≠ [] := by
  simp [Registry.isMappable, isBlankName, identifier]

/-- The rules of a solution write identifiers for the mappable names that it registers. -/
theorem mem_registry_rules_iff {rule : Rule} :
    rule ∈ (solution.registry reserved).substitution.rules ↔
      String.ofList rule.name ∈ solution.registeredNames reserved ∧ isBlank rule.name = false ∧
        identifierCharacters rule.name ≠ [] ∧
          rule.replacement = identifierCharacters rule.name := by
  rw [Registry.substitution, mem_rules_iff]
  show isBlank rule.name = false ∧
    (solution.registry reserved).get? (String.ofList rule.name) = _ ↔ _
  rw [get?_registry, Option.ite_none_right_eq_some, Option.some_inj, isMappable_iff]
  have hreplacement : identifier (String.ofList rule.name) = String.ofList rule.replacement ↔
      rule.replacement = identifierCharacters rule.name := by
    rw [identifier, String.toList_ofList, String.ofList_inj, eq_comm]
  rw [hreplacement]
  tauto

end Formulary.Solution
