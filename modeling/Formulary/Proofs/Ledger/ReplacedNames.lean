import Formulary.Proofs.Ledger.Rules

/-!
# The names that a substitution replaces

A substitution cuts a text into `parts`, characters that are kept and names that are replaced, and
writes a replacement for every name, `replaceFrom_eq_written`. The parts depend only on the names
that have rules, `parts_congr`, so ledgers with values for the same words cut every text into the
same parts, `Ledger.parts_congr`.
-/

set_option autoImplicit false
set_option relaxedAutoImplicit false

namespace Formulary.Name

open Formulary.Text

/-! ### Parts of a text -/

/-- A part of a text: a character that is kept or a name that is replaced. -/
inductive Part where
  | character (value : Char)
  | name (text : List Char)
  deriving Repr, DecidableEq

/-- The parts of a text that follows `before`; its first `skipped` characters belong to a name that
has been replaced already. -/
def parts (rules : List Rule) : Option Char → Nat → List Char → List Part
  | _, _, [] => []
  | _, skipped + 1, character :: rest => parts rules (some character) skipped rest
  | before, 0, character :: rest =>
    match rules.find? fun rule ↦ occursAt rule.name before (character :: rest) with
    | some rule => .name rule.name :: parts rules (some character) (rule.name.length - 1) rest
    | none => .character character :: parts rules (some character) 0 rest

/-- The text of a part with a replacement for every name. -/
def Part.written (replacement : List Char → List Char) : Part → List Char
  | .character value => [value]
  | .name text => replacement text

/-- The text of some parts with a replacement for every name. -/
def written (replacement : List Char → List Char) (parts : List Part) : List Char :=
  parts.flatMap (Part.written replacement)

variable {rules others : List Rule} {before : Option Char} {skipped : Nat} {text : List Char}

/-- A substitution writes the replacements of its rules for the names of the parts. -/
theorem replaceFrom_eq_written {replacement : List Char → List Char}
    (hreplacement : ∀ rule ∈ rules, rule.replacement = replacement rule.name) :
    replaceFrom rules before skipped text =
      written replacement (parts rules before skipped text) := by
  fun_induction parts rules before skipped text with
  | case1 => cases skipped <;> rfl
  | case2 before skipped character rest ih => exact ih
  | case3 before character rest rule hfound ih =>
    rw [replaceFrom, hfound]
    show rule.replacement ++ _ = replacement rule.name ++ _
    rw [hreplacement rule (List.mem_of_find?_eq_some hfound)]
    exact congrArg (replacement rule.name ++ ·) ih
  | case4 before character rest hfound ih =>
    rw [replaceFrom, hfound]
    exact congrArg (character :: ·) ih

/-- Every name among the parts has a rule. -/
theorem exists_rule_of_mem_parts {name : List Char}
    (hname : .name name ∈ parts rules before skipped text) : ∃ rule ∈ rules, rule.name = name := by
  fun_induction parts rules before skipped text with
  | case1 => cases hname
  | case2 before skipped character rest ih => exact ih hname
  | case3 before character rest rule hfound ih =>
    rcases List.mem_cons.mp hname with hsame | hrest
    · cases hsame
      exact ⟨rule, List.mem_of_find?_eq_some hfound, rfl⟩
    · exact ih hrest
  | case4 before character rest hfound ih =>
    rcases List.mem_cons.mp hname with hsame | hrest
    · cases hsame
    · exact ih hrest

/-- Rules that are found for the same names cut a text into the same parts. -/
theorem parts_congr
    (hsame : ∀ before text,
      (rules.find? fun rule ↦ occursAt rule.name before text).map Rule.name =
        (others.find? fun rule ↦ occursAt rule.name before text).map Rule.name) :
    parts rules before skipped text = parts others before skipped text := by
  fun_induction parts rules before skipped text with
  | case1 => cases skipped <;> rfl
  | case2 before skipped character rest ih => exact ih
  | case3 before character rest rule hfound ih =>
    have hother := hsame before (character :: rest)
    rw [hfound, Option.map_some, eq_comm, Option.map_eq_some_iff] at hother
    obtain ⟨other, hother, hname⟩ := hother
    rw [parts, hother, ih, ← hname]
  | case4 before character rest hfound ih =>
    have hother := hsame before (character :: rest)
    rw [hfound, Option.map_none, eq_comm, Option.map_eq_none_iff] at hother
    rw [parts, hother, ih]

/-! ### Substitutions for the same names -/

variable {firstPairs secondPairs : List (String × String)}

/-- A name that one substitution replaces somewhere, another one for the same names replaces too. -/
theorem exists_find?_of_names
    (hnames : ∀ name, (∃ rule ∈ (Substitution.ofPairs firstPairs).rules, rule.name = name) ↔
      ∃ rule ∈ (Substitution.ofPairs secondPairs).rules, rule.name = name) {rule : Rule}
    (hfound : ((Substitution.ofPairs firstPairs).rules.find? fun rule ↦
      occursAt rule.name before text) = some rule) :
    ∃ other, ((Substitution.ofPairs secondPairs).rules.find? fun rule ↦
      occursAt rule.name before text) = some other ∧ other.name = rule.name := by
  obtain ⟨hrule, hoccurs, hlongest⟩ := find?_eq_some_iff.mp hfound
  obtain ⟨other, hother, hname⟩ := (hnames rule.name).mp ⟨rule, hrule, rfl⟩
  refine ⟨other, find?_eq_some_iff.mpr ⟨hother, hname ▸ hoccurs, fun third hthird hstands ↦ ?_⟩,
    hname⟩
  obtain ⟨fourth, hfourth, hsame⟩ := (hnames third.name).mpr ⟨third, hthird, rfl⟩
  rw [hname, ← hsame]
  exact hlongest fourth hfourth (hsame ▸ hstands)

theorem map_name_find?_congr
    (hnames : ∀ name, (∃ rule ∈ (Substitution.ofPairs firstPairs).rules, rule.name = name) ↔
      ∃ rule ∈ (Substitution.ofPairs secondPairs).rules, rule.name = name) :
    ((Substitution.ofPairs firstPairs).rules.find? fun rule ↦
        occursAt rule.name before text).map Rule.name =
      ((Substitution.ofPairs secondPairs).rules.find? fun rule ↦
        occursAt rule.name before text).map Rule.name := by
  ext name
  rw [Option.map_eq_some_iff, Option.map_eq_some_iff]
  constructor
  · rintro ⟨rule, hfound, rfl⟩
    exact exists_find?_of_names hnames hfound
  · rintro ⟨rule, hfound, rfl⟩
    exact exists_find?_of_names (fun name ↦ (hnames name).symm) hfound

end Formulary.Name

namespace Formulary.Ledger

open Formulary.Name Formulary.Text

variable {first second : Ledger}

/-- The parts of a text that a ledger has values for the names of. -/
def parts (ledger : Ledger) (text : List Char) : List Part :=
  Name.parts ledger.substitution.rules none 0 text

/-- The literal of the value of a name. -/
def literalOf (ledger : Ledger) (name : List Char) : List Char :=
  (ledger.get? (String.ofList name)).elim [] fun value ↦ (literal value).toList

/-- A ledger writes the literals of its values for the names of the parts. -/
theorem replace_eq_written (ledger : Ledger) (text : List Char) :
    ledger.substitution.replace text = written ledger.literalOf (ledger.parts text) := by
  refine replaceFrom_eq_written fun rule hrule ↦ ?_
  obtain ⟨_, value, hvalue, hreplacement⟩ := mem_substitution_rules_iff.mp hrule
  rw [literalOf, hvalue, hreplacement]
  rfl

/-- Every name among the parts has a value. -/
theorem exists_value_of_mem_parts {ledger : Ledger} {name text : List Char}
    (hname : .name name ∈ ledger.parts text) :
    ∃ value, ledger.get? (String.ofList name) = some value := by
  obtain ⟨rule, hrule, rfl⟩ := exists_rule_of_mem_parts hname
  obtain ⟨_, value, hvalue, _⟩ := mem_substitution_rules_iff.mp hrule
  exact ⟨value, hvalue⟩

theorem exists_rule_iff {ledger : Ledger} {name : List Char} :
    (∃ rule ∈ ledger.substitution.rules, rule.name = name) ↔
      isBlank name = false ∧ (ledger.get? (String.ofList name)).isSome = true := by
  constructor
  · rintro ⟨rule, hrule, rfl⟩
    obtain ⟨hblank, value, hvalue, _⟩ := mem_substitution_rules_iff.mp hrule
    exact ⟨hblank, Option.isSome_of_eq_some hvalue⟩
  · rintro ⟨hblank, hsome⟩
    obtain ⟨value, hvalue⟩ := Option.isSome_iff_exists.mp hsome
    exact ⟨⟨name, (literal value).toList⟩,
      mem_substitution_rules_iff.mpr ⟨hblank, value, hvalue, rfl⟩, rfl⟩

/-- Ledgers with values for the same words cut every text into the same parts. -/
theorem parts_congr (hkeys : ∀ key, (first.get? key).isSome = (second.get? key).isSome)
    (text : List Char) : first.parts text = second.parts text := by
  refine Name.parts_congr fun before rest ↦ map_name_find?_congr fun name ↦ ?_
  show (∃ rule ∈ first.substitution.rules, _) ↔ ∃ rule ∈ second.substitution.rules, _
  rw [exists_rule_iff, exists_rule_iff, hkeys]

end Formulary.Ledger
