import Formulary.Ledger
import Formulary.Proofs.Name.PlainName

/-!
# The rules of a ledger

The substitution of a ledger has a rule for each word that is not blank, whose replacement is the
literal of its value, `mem_substitution_rules_iff`. So a text is substituted alike by two ledgers
that agree on the words that stand in it, `replace_congr`.
-/

set_option autoImplicit false
set_option relaxedAutoImplicit false

namespace Formulary.Ledger

open Formulary.Name Formulary.Text

variable {ledger other : Ledger}

theorem lookup_literals (ledger : Ledger) (key : String) :
    (ledger.entries.map fun entry ↦ (entry.key, literal entry.value)).lookup key =
      (ledger.get? key).map literal := by
  obtain ⟨entries⟩ := ledger
  unfold get? entry?
  induction entries with
  | nil => rfl
  | cons entry rest ih =>
    rw [List.map_cons, List.lookup_cons, List.find?_cons]
    by_cases hkey : entry.key = key
    · simp [hkey]
    · have hentry : (entry.key == key) = false := beq_eq_false_iff_ne.mpr hkey
      have hother : (key == entry.key) = false := beq_eq_false_iff_ne.mpr (Ne.symm hkey)
      simp only [hentry, hother]
      exact ih

/-- The rules of a ledger are its words with the literals of their values. -/
theorem mem_substitution_rules_iff {rule : Rule} : rule ∈ ledger.substitution.rules ↔
    isBlank rule.name = false ∧ ∃ value, ledger.get? (String.ofList rule.name) = some value ∧
      rule.replacement = (literal value).toList := by
  rw [substitution, mem_rules_iff, lookup_literals, Option.map_eq_some_iff]
  refine and_congr_right fun _ ↦ exists_congr fun value ↦ and_congr_right fun _ ↦ ?_
  rw [String.ext_iff, String.toList_ofList, eq_comm]

/-- Two ledgers that agree on the words that stand in a text substitute it alike. -/
theorem replace_congr {text : List Char}
    (hagree : ∀ done name rest, text = done ++ (name ++ rest) →
      occursAt name done.getLast? (name ++ rest) = true → isBlank name = false →
      ledger.get? (String.ofList name) = other.get? (String.ofList name)) :
    ledger.substitution.replace text = other.substitution.replace text := by
  refine replaceFrom_congr fun done rest htext ↦ find?_congr fun rule hoccurs ↦ ?_
  show rule ∈ ledger.substitution.rules ↔ rule ∈ other.substitution.rules
  rw [mem_substitution_rules_iff, mem_substitution_rules_iff]
  refine and_congr_right fun hblank ↦ ?_
  obtain ⟨behind, rfl⟩ := prefix_of_occursAt hoccurs
  rw [lastOr, Option.or_none] at hoccurs
  rw [hagree done rule.name behind htext hoccurs hblank]

end Formulary.Ledger
