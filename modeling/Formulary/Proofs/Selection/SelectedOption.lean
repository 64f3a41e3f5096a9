import Formulary.Selection
import Mathlib.Data.List.Infix

/-!
# The option that is selected

What stands before a colon of a key, or between two commas, stands in the key. So of the four ways
in which a key answers to a selection the first three are cases of the last one: a key answers just
where one of the two contains the other in small letters, `isSome_keyMatch_iff`. With what is
selected, `selection?_eq_some_iff`, this describes the number that a dropdown gets by places in the
lists of parameters and options, `selectedValue_laws`.
-/

set_option autoImplicit false
set_option relaxedAutoImplicit false

namespace Formulary

open Formulary.Text

variable {settings : Settings} {parameter : Parameter} {parameters : List Parameter}
variable {overrides : Overrides} {selection : String} {option : DropdownOption}
variable {options : List DropdownOption} {part text : List Char}

/-! ### Parts of a key -/

theorem trim_isInfix (text : List Char) : trim text <:+: text := by
  have hend : trimEnd (trimStart text) <+: trimStart text := by
    rw [← List.reverse_suffix, trimEnd, List.reverse_reverse]
    exact List.dropWhile_suffix isWhiteSpace
  exact hend.isInfix.trans (List.dropWhile_suffix isWhiteSpace).isInfix

theorem isInfix_intercalate {parts : List (List Char)} (separator : List Char)
    (hpart : part ∈ parts) : part <:+: separator.intercalate parts := by
  induction parts with
  | nil => cases hpart
  | cons first rest ih =>
    cases rest with
    | nil =>
      rw [List.mem_singleton.mp hpart, List.intercalate_singleton]
    | cons second rest =>
      rw [List.intercalate_cons_cons, List.append_assoc]
      rcases List.mem_cons.mp hpart with rfl | hlater
      · exact (List.prefix_append _ _).isInfix
      · rw [← List.append_assoc]
        exact (ih hlater).trans (List.suffix_append _ _).isInfix

theorem isInfix_of_mem_splitOn {separator : Char} (hpart : part ∈ text.splitOn separator) :
    part <:+: text := by
  have hinside := isInfix_intercalate [separator] hpart
  rwa [List.intercalate_splitOn] at hinside

theorem isInfix_of_splitFirst {separator : Char} {head tail : List Char}
    (hcut : splitFirst separator text = some (head, tail)) : head <:+: text := by
  rw [splitFirst_eq_some hcut]
  exact (List.prefix_append head _).isInfix

/-! ### Keys that answer -/

/-- A key in small letters answers to a selection just where one of the two contains the other. -/
theorem isSome_loweredKeyMatch_iff (key selection : List Char) :
    (loweredKeyMatch key selection).isSome = true ↔
      key <:+: selection ∨ selection <:+: key := by
  rw [loweredKeyMatch]
  split
  · rename_i hsame
    exact iff_of_true rfl (Or.inl (hsame ▸ List.infix_rfl))
  split
  · rename_i hcolon
    obtain ⟨⟨head, tail⟩, hcut, hhead⟩ := (Option.any_eq_true _ _).mp hcolon
    have hinside := (trim_isInfix head).trans (isInfix_of_splitFirst hcut)
    exact iff_of_true rfl (Or.inr (beq_iff_eq.mp hhead ▸ hinside))
  split
  · rename_i hlisted
    obtain ⟨part, hpart, hsame⟩ := List.any_eq_true.mp (Bool.and_eq_true_iff.mp hlisted).2
    have hinside := (trim_isInfix part).trans (isInfix_of_mem_splitOn hpart)
    exact iff_of_true rfl (Or.inr (beq_iff_eq.mp hsame ▸ hinside))
  · rw [← occursIn_iff_isInfix, ← occursIn_iff_isInfix, ← Bool.or_eq_true, Bool.or_comm]
    split
    · rename_i hcontaining
      exact iff_of_true rfl hcontaining
    · rename_i hnone
      exact iff_of_false Bool.false_ne_true hnone

/-- In small letters, one of two texts contains the other. -/
def IsNested (first second : String) : Prop :=
  lower first.toList <:+: lower second.toList ∨ lower second.toList <:+: lower first.toList

theorem isSome_keyMatch_iff (key selection : String) :
    (keyMatch key selection).isSome = true ↔ IsNested key selection :=
  isSome_loweredKeyMatch_iff _ _

/-- An option has a key that answers to a selection. -/
def DropdownOption.Answers (option : DropdownOption) (selection : String) : Prop :=
  ∃ key, option.key = some key ∧ IsNested key selection

theorem answers_iff : (option.key.any fun key ↦ (keyMatch key selection).isSome) = true ↔
    option.Answers selection := by
  simp only [Option.any_eq_true, isSome_keyMatch_iff, DropdownOption.Answers]

theorem selectedOption?_eq_some_iff : selectedOption? options selection = some option ↔
    option.Answers selection ∧ ∃ front back, options = front ++ option :: back ∧
      ∀ earlier ∈ front, ¬earlier.Answers selection := by
  simp only [selectedOption?, List.find?_eq_some_iff_append, answers_iff, Bool.not_eq_true',
    ← Bool.not_eq_true]

theorem selectedOption?_eq_none_iff : selectedOption? options selection = none ↔
    ∀ option ∈ options, ¬option.Answers selection := by
  simp only [selectedOption?, List.find?_eq_none, answers_iff]

/-! ### What is selected -/

/-- A filter whose name contains the keyword in small letters. -/
def IsSelector (settings : Settings) (parameter : Parameter) : Prop :=
  parameter.display = .filter ∧
    lower settings.selectorKeyword.toList <:+: lower parameter.name.toList

theorem isSelector_iff : (parameter.isFilter && namesSelector settings parameter) = true ↔
    IsSelector settings parameter := by
  rw [Bool.and_eq_true, Parameter.isFilter, beq_iff_eq, namesSelector, occursIn_iff_isInfix,
    IsSelector]

/-- A text is selected: the first filter that the keyword names has options, and the text is entered
for it and not blank. -/
def Selects (settings : Settings) (parameters : List Parameter) (overrides : Overrides)
    (selection : String) : Prop :=
  ∃ front selector back entered, parameters = front ++ selector :: back ∧
    (∀ earlier ∈ front, ¬IsSelector settings earlier) ∧ IsSelector settings selector ∧
    selector.options ≠ [] ∧ overrides.find? selector.id = some entered ∧
    entered.isBlank = false ∧ entered.display = selection

theorem selector?_eq_some_iff {selector : Parameter} :
    selector? settings parameters = some selector ↔
      (IsSelector settings selector ∧ ∃ front back, parameters = front ++ selector :: back ∧
        ∀ earlier ∈ front, ¬IsSelector settings earlier) ∧ selector.options ≠ [] := by
  simp only [selector?, Option.filter_eq_some_iff, List.find?_eq_some_iff_append, isSelector_iff,
    Bool.not_eq_true', ← Bool.not_eq_true, List.isEmpty_iff, ne_eq]

theorem selection?_eq_some_iff : selection? settings parameters overrides = some selection ↔
    Selects settings parameters overrides selection := by
  simp only [selection?, Option.bind_eq_some_iff, selector?_eq_some_iff, Option.map_eq_some_iff,
    Option.filter_eq_some_iff, Bool.not_eq_true']
  constructor
  · rintro ⟨selector, ⟨⟨hselector, front, back, hsplit, hfront⟩, hoptions⟩, entered,
      ⟨hentered, hblank⟩, hdisplay⟩
    exact ⟨front, selector, back, entered, hsplit, hfront, hselector, hoptions, hentered, hblank,
      hdisplay⟩
  · rintro ⟨front, selector, back, entered, hsplit, hfront, hselector, hoptions, hentered, hblank,
      hdisplay⟩
    exact ⟨selector, ⟨⟨hselector, front, back, hsplit, hfront⟩, hoptions⟩, entered,
      ⟨hentered, hblank⟩, hdisplay⟩

/-! ### The number of a dropdown -/

/-- A key answers just where one of the two texts contains the other in small letters. So a dropdown
with options gets the number of the first option that has a key which in this sense contains, or is
contained in, what is selected, and none if there is no such option or the first one has no number;
nor does it get a number if nothing is selected, or if it is no dropdown with options. -/
theorem selectedValue_laws :
    (∀ key selection, (keyMatch key selection).isSome = true ↔ IsNested key selection) ∧
    ∀ settings parameters overrides (target : Parameter),
      (∀ selection, target.display = .dropdown → target.options ≠ [] →
        Selects settings parameters overrides selection →
          (∀ front option back, target.options = front ++ option :: back →
            (∀ earlier ∈ front, ¬earlier.Answers selection) → option.Answers selection →
              selectedValue settings parameters overrides target =
                option.value.bind Quantity.reading) ∧
          ((∀ option ∈ target.options, ¬option.Answers selection) →
            selectedValue settings parameters overrides target = none)) ∧
      (¬(target.display = .dropdown ∧ target.options ≠ [] ∧
          ∃ selection, Selects settings parameters overrides selection) →
        selectedValue settings parameters overrides target = none) := by
  refine ⟨isSome_keyMatch_iff, fun settings parameters overrides target ↦
    ⟨fun selection hdropdown hoptions hselects ↦ ?_, fun hother ↦ ?_⟩⟩
  · have hvalue : selectedValue settings parameters overrides target =
        (selectedOption? target.options selection).bind fun option ↦
          option.value.bind Quantity.reading := by
      rw [selectedValue, if_pos ⟨hdropdown, hoptions⟩, selection?_eq_some_iff.mpr hselects]
      rfl
    refine ⟨fun front option back hsplit hfront hanswers ↦ ?_, fun hnone ↦ ?_⟩
    · rw [hvalue, selectedOption?_eq_some_iff.mpr ⟨hanswers, front, back, hsplit, hfront⟩,
        Option.bind_some]
    · rw [hvalue, selectedOption?_eq_none_iff.mpr hnone, Option.bind_none]
  · rw [selectedValue]
    split
    · rename_i hdropdown
      have hnothing : selection? settings parameters overrides = none := by
        refine Option.eq_none_iff_forall_ne_some.mpr fun selection hselected ↦ ?_
        exact hother ⟨hdropdown.1, hdropdown.2, selection, selection?_eq_some_iff.mp hselected⟩
      rw [hnothing]
      rfl
    · rfl

/-- Of a table by countries the row of the country is selected that stands before the colon of its
key. -/
theorem selectedValue_country :
    let country : Parameter := { id := "country", name := "Country", display := .filter
                                 options := [{ key := some "UK", value := none }] }
    let first : DropdownOption := { key := some "USA, CAN", value := some (.number 0.4) }
    let second : DropdownOption := { key := some "UK: 181", value := some (.number 0.181) }
    let factor : Parameter := { id := "grid", name := "Grid Factor", display := .dropdown
                                options := [first, second] }
    let settings : Settings := .standard
    Selects settings [country, factor] [("country", .text "uk")] "uk" ∧ second.Answers "uk" ∧
      selectedValue settings [country, factor] [("country", .text "uk")] factor =
        (Quantity.number 0.181).reading := by
  intro country first second factor settings
  obtain ⟨hkey, hvalue⟩ := selectedValue_laws
  have hselects : Selects settings [country, factor] [("country", .text "uk")] "uk" := by
    refine ⟨[], country, [factor], .text "uk", rfl, by simp, ⟨rfl, ?_⟩, by simp [country], rfl,
      by decide +kernel, rfl⟩
    exact (occursIn_iff_isInfix _ _).mp (by decide +kernel)
  have hsecond : second.Answers "uk" :=
    ⟨"UK: 181", rfl, (hkey "UK: 181" "uk").mp (by decide +kernel)⟩
  have hfirst : ¬first.Answers "uk" := by
    rintro ⟨key, hsome, hnested⟩
    obtain rfl := Option.some_inj.mp hsome
    exact absurd ((hkey "USA, CAN" "uk").mpr hnested) (by decide +kernel)
  obtain ⟨hanswered, -⟩ := hvalue settings [country, factor] [("country", .text "uk")] factor
  refine ⟨hselects, hsecond, ?_⟩
  exact (hanswered "uk" rfl (by simp [factor]) hselects).1 [first] second [] rfl
    (by simpa using hfirst) hsecond

end Formulary
