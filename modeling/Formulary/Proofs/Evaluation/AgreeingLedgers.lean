import Formulary.Preview
import Formulary.Proofs.Evaluation.Literals
import Formulary.Proofs.Formula.Names
import Formulary.Proofs.Ledger.Rules
import Formulary.Proofs.Substitution.LeftoverName

/-!
# Ledgers that agree on a formula

A ledger is consulted twice when a formula is evaluated: its values are written into the text, and
the names that are left in the tree are looked up. The words of the first kind stand in the formula.
So do those of the second kind, since no name comes up by the substitution. Two ledgers that agree
on the words that stand in a formula therefore give it the same value, `evaluateIn_congr`.
-/

set_option autoImplicit false
set_option relaxedAutoImplicit false

namespace Formulary

open Formulary.Formula Formulary.Name Formulary.Number Formulary.Text

/-! ### Ledgers with plain words -/

/-- A ledger of finite values in which every word that is ASCII starts and ends with a plain
character. -/
structure Ledger.HasPlainWords (ledger : Ledger) : Prop where
  edges : ∀ key value, ledger.get? key = some value →
    (∀ character ∈ key.toList, character.toNat < 128) → hasPlainEdges key.toList = true
  finite : ∀ key value, ledger.get? key = some value → value.isFinite = true

variable {ledger other : Ledger}

theorem Ledger.HasPlainWords.inert (hledger : ledger.HasPlainWords) :
    Inert ledger.substitution.rules where
  edges rule hrule hascii := by
    obtain ⟨_, value, hvalue, _⟩ := Ledger.mem_substitution_rules_iff.mp hrule
    have hedges := hledger.edges _ value hvalue
    rw [String.toList_ofList] at hedges
    exact hedges hascii
  names rule hrule character hcharacter := by
    obtain ⟨_, value, hvalue, hreplacement⟩ := Ledger.mem_substitution_rules_iff.mp hrule
    rw [hreplacement] at hcharacter
    exact (classes_of_mem_literal (hledger.finite _ value hvalue) hcharacter).2

theorem ne_nil_of_mem_substitution_rules {rule : Rule} (hrule : rule ∈ ledger.substitution.rules) :
    rule.name ≠ [] := by
  obtain ⟨hblank, _⟩ := Ledger.mem_substitution_rules_iff.mp hrule
  intro hempty
  rw [hempty] at hblank
  exact Bool.false_ne_true hblank.symm

/-! ### Words that stand in a formula -/

variable {text : List Char}

/-- Ledgers that agree on the words that stand in an ASCII text substitute it alike. -/
theorem replace_eq_replace (hledger : ledger.HasPlainWords) (hother : other.HasPlainWords)
    (hascii : ∀ character ∈ text, character.toNat < 128)
    (hagree : ∀ key, StandsIn key.toList text → ledger.get? key = other.get? key) :
    ledger.substitution.replace text = other.substitution.replace text := by
  refine Ledger.replace_congr fun done name rest htext hoccurs _ ↦ ?_
  have hname : ∀ character ∈ (String.ofList name).toList, character.toNat < 128 := by
    intro character hcharacter
    rw [String.toList_ofList] at hcharacter
    rw [htext] at hascii
    exact hascii character (List.mem_append_right _ (List.mem_append_left _ hcharacter))
  by_cases hedges : hasPlainEdges name = true
  · refine hagree _ ⟨done, rest, by rw [String.toList_ofList, htext], ?_⟩
    obtain ⟨behind, hbehind, hbefore, hafter⟩ := (occursAt_iff hedges _).mp hoccurs
    obtain rfl := List.append_cancel_left hbehind
    exact ⟨not_plain_of_not_word hbefore, not_plain_of_not_word hafter⟩
  · have hunknown {known : Ledger} (hknown : known.HasPlainWords) :
        known.get? (String.ofList name) = none := by
      refine Option.eq_none_iff_forall_ne_some.mpr fun value hvalue ↦ hedges ?_
      simpa using hknown.edges _ value hvalue hname
    rw [hunknown hledger, hunknown hother]

/-- Literals keep an ASCII text one. -/
theorem isAscii_replace (hledger : ledger.HasPlainWords)
    (hascii : ∀ character ∈ text, character.toNat < 128) :
    ∀ character ∈ ledger.substitution.replace text, character.toNat < 128 := by
  intro character hcharacter
  have hreplaces := replaces_replaceFrom (fun _ ↦ @ne_nil_of_mem_substitution_rules ledger _) none
    text
  rcases hreplaces.mem hcharacter with hkept | ⟨rule, hrule, hwritten⟩
  · exact hascii character hkept
  · obtain ⟨_, value, hvalue, hreplacement⟩ := Ledger.mem_substitution_rules_iff.mp hrule
    rw [hreplacement] at hwritten
    exact (classes_of_mem_literal (hledger.finite _ value hvalue) hwritten).1

/-- A name that is left in the tree of a substituted text stands in the text, unless it starts with
a digit. -/
theorem standsIn_of_mem_names (hledger : ledger.HasPlainWords)
    (hascii : ∀ character ∈ text, character.toNat < 128) {tree : Expression}
    (hparse : parse (ledger.substitution.replace text) = .ok tree) {name : String}
    (hname : name ∈ tree.names) (hfirst : name.toList.head?.any isNameStart = true) :
    StandsIn name.toList text := by
  obtain ⟨hletters, front, back, hsplit, hfront, hback⟩ := standsApart_of_mem_names hparse hname
  have hinside : ∀ character ∈ name.toList, character.toNat < 128 := by
    intro character hcharacter
    refine isAscii_replace hledger hascii character ?_
    rw [hsplit]
    exact List.mem_append_right front (List.mem_append_left back hcharacter)
  have hplain := all_isPlainCharacter hinside hletters
  have hstart : name.toList.head?.any isPlainStart = true := by
    refine any_imp (fun first hhead hclass ↦ ?_) hfirst
    rw [← isNameStart_of_ascii (hinside first (List.mem_of_mem_head? hhead)), hclass]
  exact standsIn_of_standsIn_replaceFrom hledger.inert (fun _ ↦ ne_nil_of_mem_substitution_rules)
    hascii hstart hplain
    ⟨front, back, hsplit, not_plain_of_not_name hfront, not_plain_of_not_name hback⟩

/-! ### Evaluation -/

variable {formula : String}

/-- Ledgers that agree on the words that stand in an ASCII formula give it the same value, if the
words on which they differ start like names. -/
theorem evaluateIn_congr (hledger : ledger.HasPlainWords) (hother : other.HasPlainWords)
    (hascii : ∀ character ∈ formula.toList, character.toNat < 128)
    (hagree : ∀ key, StandsIn key.toList formula.toList → ledger.get? key = other.get? key)
    (hdiffer : ∀ key, ledger.get? key ≠ other.get? key →
      key.toList.head?.any isNameStart = true) (settings : Settings) :
    evaluateIn settings ledger formula = evaluateIn settings other formula := by
  have hreplaced := replace_eq_replace hledger hother hascii hagree
  have hvalue : substitutedValue ledger formula = substitutedValue other formula := by
    rw [substitutedValue, substitutedValue, ← hreplaced]
    cases hparse : parse (ledger.substitution.replace formula.toList) with
    | error error => rfl
    | ok tree =>
      refine evaluate_congr tree fun name hname ↦ ?_
      by_cases hsame : ledger.get? name = other.get? name
      · exact hsame
      · exact hagree name
          (standsIn_of_mem_names hledger hascii hparse hname (hdiffer name hsame))
  rw [evaluateIn, evaluateIn, hvalue]

end Formulary
