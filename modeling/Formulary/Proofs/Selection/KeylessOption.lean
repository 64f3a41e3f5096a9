import Formulary.Proofs.Name.LoweredSeparators
import Formulary.Proofs.Number.PlainNumeral
import Formulary.Proofs.Selection.SelectedOption

/-!
# Options without a usable key

A row of an option table without a key never answers to a selection. But a row with an empty or
blank key does, wherever the key stands in the selection, as the empty one always does: white space
has no case, so `isInfix_lower_iff` takes the question from the small letters back to the texts.
What is selected is never blank, hence no other blank key answers, `answers_iff_of_isKeyless`. The
main statement, `selectedValue_of_keyless`, says which rows of this kind may be inserted into a
table without a change of the number that is selected, and what the others do.
-/

set_option autoImplicit false
set_option relaxedAutoImplicit false

namespace Formulary

open Formulary.Name Formulary.Number Formulary.Text

variable {settings : Settings} {parameters : List Parameter} {overrides : Overrides}
variable {target : Parameter} {selection : String} {option : DropdownOption}
variable {word text letters : List Char} {character : Char}

/-! ### White space in small letters -/

theorem isBlank_lower (text : List Char) : isBlank (lower text) = isBlank text := by
  rw [Bool.eq_iff_iff, isBlank_iff_trim_eq_nil, isBlank_iff_trim_eq_nil, trim_lower,
    lower_eq_nil_iff]

theorem isSeparator_of_isBlank_cons (hblank : isBlank (character :: word) = true) :
    isSeparator character = true ∧ isBlank word = true := by
  rw [isBlank, List.all_cons, Bool.and_eq_true] at hblank
  exact ⟨isSeparator_of_isWhiteSpace hblank.1, hblank.2⟩

theorem lower_of_isBlank (hblank : isBlank word = true) : lower word = word := by
  induction word with
  | nil => rfl
  | cons character word ih =>
    obtain ⟨hseparator, hrest⟩ := isSeparator_of_isBlank_cons hblank
    rw [lower_cons_of_isSeparator hseparator, ih hrest]

/-- White space stands at the front of a text where it stands at the front of the small letters. -/
theorem prefix_lowerAfter_iff (hblank : isBlank word = true) (before : List Char) :
    word <+: lowerAfter before text ↔ word <+: text := by
  induction text generalizing word before with
  | nil => rfl
  | cons first text ih =>
    cases word with
    | nil => simp
    | cons character word =>
      obtain ⟨hseparator, hrest⟩ := isSeparator_of_isBlank_cons hblank
      rw [lowerAfter_cons]
      cases hfirst : isSeparator first with
      | true =>
        obtain ⟨hsmall, hsigma, -⟩ := lower_separator hfirst
        rw [smallLetters, if_neg hsigma, hsmall, List.singleton_append, List.cons_prefix_cons,
          List.cons_prefix_cons, ih hrest]
      | false =>
        obtain ⟨small, letters, hletters⟩ :=
          List.exists_cons_of_ne_nil (smallLetters_ne_nil before first text)
        have hsmall := not_isSeparator_smallLetters hfirst before text small
          (hletters ▸ List.mem_cons_self)
        rw [hletters, List.cons_append, List.cons_prefix_cons, List.cons_prefix_cons]
        refine iff_of_false ?_ ?_
        · rintro ⟨rfl, -⟩
          exact Bool.false_ne_true (hsmall.symm.trans hseparator)
        · rintro ⟨rfl, -⟩
          exact Bool.false_ne_true (hfirst.symm.trans hseparator)

/-- A word does not begin in front of a text, among characters other than its first one. -/
theorem isInfix_append_iff {rest : List Char} (hletters : character ∉ letters) :
    character :: word <:+: letters ++ rest ↔ character :: word <:+: rest := by
  induction letters with
  | nil => rfl
  | cons letter letters ih =>
    rw [List.mem_cons, not_or] at hletters
    rw [List.cons_append, List.infix_cons_iff, ih hletters.2, List.cons_prefix_cons]
    exact or_iff_right fun hfront ↦ hletters.1 hfront.1

/-- White space stands in a text where it stands in the small letters. -/
theorem isInfix_lower_iff (hblank : isBlank word = true) :
    word <:+: lower text ↔ word <:+: text := by
  have hafter (before : List Char) : word <:+: lowerAfter before text ↔ word <:+: text := by
    induction text generalizing before with
    | nil => rfl
    | cons first text ih =>
      cases hfirst : isSeparator first with
      | true =>
        have hfront : word <+: lowerAfter before (first :: text) ↔ word <+: first :: text :=
          prefix_lowerAfter_iff hblank before
        obtain ⟨hsmall, hsigma, -⟩ := lower_separator hfirst
        rw [lowerAfter_cons, smallLetters, if_neg hsigma, hsmall, List.singleton_append] at hfront ⊢
        rw [List.infix_cons_iff, List.infix_cons_iff, ih, hfront]
      | false =>
        cases word with
        | nil => simp
        | cons character word =>
          have hseparator := (isSeparator_of_isBlank_cons hblank).1
          have hletters : character ∉ smallLetters before first text := fun hmember ↦
            Bool.false_ne_true ((not_isSeparator_smallLetters hfirst before text character
              hmember).symm.trans hseparator)
          have hother : character ∉ [first] := fun hmember ↦ Bool.false_ne_true
            (hfirst.symm.trans (List.mem_singleton.mp hmember ▸ hseparator))
          rw [lowerAfter_cons, isInfix_append_iff hletters, ih]
          exact (isInfix_append_iff hother).symm
  exact hafter []

/-! ### What is selected is not blank -/

/-- The text of a number is not blank. -/
theorem isBlank_shortestText (value : Float) : isBlank (shortestText value).toList = false := by
  rw [shortestText, String.toList_ofList, isBlank_eq_false_iff]
  have hsigned (negative : Bool) {text : List Char}
      (htext : ∃ character ∈ text, isWhiteSpace character = false) :
      ∃ character ∈ signed negative text, isWhiteSpace character = false := by
    obtain ⟨character, hmember, hdark⟩ := htext
    refine ⟨character, ?_, hdark⟩
    cases negative with
    | false => exact hmember
    | true => exact List.mem_cons_of_mem _ hmember
  rw [shortestCharacters]
  split
  · exact ⟨'N', List.mem_cons_self, by decide⟩
  · exact hsigned _ ⟨'i', List.mem_cons_self, by decide⟩
  · refine hsigned _ ?_
    obtain ⟨numeral, hnumeral, -, htext⟩ := isPlainNumeral_positional (Magnitude.shortest _)
    obtain ⟨first, others, hfirst, hclass⟩ := hnumeral.exists_cons
    refine ⟨first, by rw [htext, hfirst]; exact List.mem_cons_self, ?_⟩
    rcases hclass with hdigit | rfl
    · exact isWhiteSpace_of_isAsciiDigit hdigit
    · decide

theorem Selects.isBlank (hselects : Selects settings parameters overrides selection) :
    isBlank selection.toList = false := by
  obtain ⟨_, _, _, entered, -, -, -, -, -, hblank, rfl⟩ := hselects
  cases entered with
  | number value => exact isBlank_shortestText value
  | text value => exact hblank

/-! ### Keys that are not usable -/

/-- An option has no key that could name what is selected: none, the empty one or white space. -/
def DropdownOption.IsKeyless (option : DropdownOption) : Prop :=
  ∀ key, option.key = some key → isBlank key.toList = true

/-- The key of an option, if there is one, stands in a text. -/
def DropdownOption.KeyStandsIn (option : DropdownOption) (text : String) : Prop :=
  ∃ key, option.key = some key ∧ key.toList <:+: text.toList

/-- An option without a usable key answers just where the key that it has stands in the
selection. -/
theorem answers_iff_of_isKeyless (hkeyless : option.IsKeyless)
    (hselection : isBlank selection.toList = false) :
    option.Answers selection ↔ option.KeyStandsIn selection := by
  refine exists_congr fun key ↦ and_congr_right fun hkey ↦ ?_
  have hblank := hkeyless key hkey
  rw [IsNested, lower_of_isBlank hblank, isInfix_lower_iff hblank]
  refine or_iff_left fun hinside ↦ ?_
  have hlowered : isBlank (lower selection.toList) = true :=
    List.all_eq_true.mpr fun character hmember ↦
      List.all_eq_true.mp hblank character (hinside.subset hmember)
  rw [isBlank_lower, hselection] at hlowered
  cases hlowered

/-! ### Inserted options -/

/-- A list with further items of one kind, inserted anywhere. -/
inductive WithInserted {Item : Type} (kind : Item → Prop) : List Item → List Item → Prop
  | nil : WithInserted kind [] []
  | kept {items longer : List Item} (item : Item) :
      WithInserted kind items longer → WithInserted kind (item :: items) (item :: longer)
  | inserted {items longer : List Item} (item : Item) :
      kind item → WithInserted kind items longer → WithInserted kind items (item :: longer)

/-- Inserted items for which a search does not look leave it as it is. -/
theorem WithInserted.find?_eq {Item : Type} {kind : Item → Prop} {items longer : List Item}
    (hinserted : WithInserted kind items longer) {sought : Item → Bool}
    (hkind : ∀ item, kind item → sought item = false) :
    longer.find? sought = items.find? sought := by
  induction hinserted with
  | nil => rfl
  | kept item _ ih => rw [List.find?_cons, List.find?_cons, ih]
  | inserted item hitem _ ih =>
    rw [List.find?_cons_of_neg (Bool.eq_false_iff.mp (hkind item hitem)), ih]

/-! ### The number of a dropdown -/

/-- A parameter with another table of options. -/
def Parameter.withOptions (parameter : Parameter) (options : List DropdownOption) : Parameter :=
  { parameter with options := options }

theorem selectedValue_of_display_ne (hdisplay : target.display ≠ .dropdown) :
    selectedValue settings parameters overrides target = none := by
  rw [selectedValue, if_neg fun hdropdown ↦ hdisplay hdropdown.1]

theorem selectedValue_of_not_selects
    (hnothing : ¬∃ selection, Selects settings parameters overrides selection) :
    selectedValue settings parameters overrides target = none := by
  have hselection : selection? settings parameters overrides = none :=
    Option.eq_none_iff_forall_ne_some.mpr fun selection hselected ↦
      hnothing ⟨selection, selection?_eq_some_iff.mp hselected⟩
  rw [selectedValue, hselection]
  exact ite_self none

/-- A dropdown gets the number of the option that is selected from its table. -/
theorem selectedValue_withOptions (hdisplay : target.display = .dropdown)
    (hselects : Selects settings parameters overrides selection) (options : List DropdownOption) :
    selectedValue settings parameters overrides (target.withOptions options) =
      (selectedOption? options selection).bind fun option ↦
        option.value.bind Quantity.reading := by
  rw [selectedValue, selection?_eq_some_iff.mpr hselects]
  split
  · rfl
  · rename_i hempty
    obtain rfl : options = [] := not_not.mp (not_and.mp hempty hdisplay)
    rfl

/-- Options that do not answer to what is selected do not change what a table gives. -/
theorem selectedValue_of_withInserted {kind : DropdownOption → Prop}
    {options longer : List DropdownOption} (hinserted : WithInserted kind options longer)
    (hkind : ∀ option, kind option → ∀ selection,
      Selects settings parameters overrides selection → ¬option.Answers selection)
    (target : Parameter) :
    selectedValue settings parameters overrides (target.withOptions longer) =
      selectedValue settings parameters overrides (target.withOptions options) := by
  by_cases hdisplay : target.display = .dropdown
  · by_cases hselects : ∃ selection, Selects settings parameters overrides selection
    · obtain ⟨selection, hselects⟩ := hselects
      have hsame : selectedOption? longer selection = selectedOption? options selection :=
        hinserted.find?_eq fun option hoption ↦ Bool.eq_false_iff.mpr fun hanswers ↦
          hkind option hoption selection hselects (answers_iff.mp hanswers)
      rw [selectedValue_withOptions hdisplay hselects, hsame,
        selectedValue_withOptions hdisplay hselects]
    · rw [selectedValue_of_not_selects hselects, selectedValue_of_not_selects hselects]
  · have hwith (options : List DropdownOption) : (target.withOptions options).display ≠ .dropdown :=
      hdisplay
    rw [selectedValue_of_display_ne (hwith _), selectedValue_of_display_ne (hwith _)]

/-- An option is not looked at if one in front of it answers. -/
theorem selectedOption?_append_cons {front : List DropdownOption}
    (hfront : ∃ earlier ∈ front, earlier.Answers selection) (option : DropdownOption)
    (back : List DropdownOption) :
    selectedOption? (front ++ option :: back) selection =
      selectedOption? (front ++ back) selection := by
  obtain ⟨earlier, hearlier, hanswers⟩ := hfront
  have hfound : (selectedOption? front selection).isSome = true :=
    List.find?_isSome.mpr ⟨earlier, hearlier, answers_iff.mpr hanswers⟩
  rw [selectedOption?, List.find?_append, selectedOption?, List.find?_append]
  exact (Option.or_of_isSome hfound).trans (Option.or_of_isSome hfound).symm

/-- Options without a usable key whose keys do not stand in what is selected may be inserted
anywhere into the table of a dropdown, and its number stays what it was. Where the key of such an
option, for instance the empty one, does stand in what is selected, the option decides: it gives the
dropdown its own number, or none, unless an option in front of it answers. -/
theorem selectedValue_of_keyless (settings : Settings) (parameters : List Parameter)
    (overrides : Overrides) (target : Parameter) (options : List DropdownOption) :
    (∀ longer, WithInserted (fun option ↦ option.IsKeyless ∧ ∀ selection,
        Selects settings parameters overrides selection → ¬option.KeyStandsIn selection)
        options longer →
      selectedValue settings parameters overrides (target.withOptions longer) =
        selectedValue settings parameters overrides (target.withOptions options)) ∧
    ∀ selection front option back, target.display = .dropdown →
      Selects settings parameters overrides selection → options = front ++ back →
      option.IsKeyless → option.KeyStandsIn selection →
      ((∀ earlier ∈ front, ¬earlier.Answers selection) →
        selectedValue settings parameters overrides
          (target.withOptions (front ++ option :: back)) = option.value.bind Quantity.reading) ∧
      ((∃ earlier ∈ front, earlier.Answers selection) →
        selectedValue settings parameters overrides
          (target.withOptions (front ++ option :: back)) =
            selectedValue settings parameters overrides (target.withOptions options)) := by
  refine ⟨fun longer hinserted ↦ ?_, ?_⟩
  · refine selectedValue_of_withInserted hinserted (fun option hoption selection hselects ↦ ?_) _
    rw [answers_iff_of_isKeyless hoption.1 hselects.isBlank]
    exact hoption.2 selection hselects
  · rintro selection front option back hdisplay hselects rfl hkeyless hstands
    have hanswers := (answers_iff_of_isKeyless hkeyless hselects.isBlank).mpr hstands
    rw [selectedValue_withOptions hdisplay hselects, selectedValue_withOptions hdisplay hselects]
    refine ⟨fun hfront ↦ ?_, fun hfront ↦ ?_⟩
    · rw [selectedOption?_eq_some_iff.mpr ⟨hanswers, front, back, rfl, hfront⟩, Option.bind_some]
    · rw [selectedOption?_append_cons hfront]

/-- A filter by countries. -/
def countryFilter : Parameter where
  id := "country"
  name := "Country"
  display := .filter
  options := [{ key := some "United Kingdom", value := none }]

/-- A factor that depends on the country. -/
def gridFactor : Parameter where
  id := "grid"
  name := "Grid Factor"
  display := .dropdown

/-- Two spaces do not stand in the name of the country that is selected, but one does. -/
theorem selectedValue_of_keyless_kingdom :
    let selected : Overrides := [("country", .text "United Kingdom")]
    let kingdom : DropdownOption := { key := some "kingdom", value := some (.number 0.181) }
    let wide : DropdownOption := { key := some "  ", value := some (.number 0.4) }
    let narrow : DropdownOption := { key := some " ", value := some (.number 0.7) }
    Selects .standard [countryFilter] selected "United Kingdom" ∧ wide.IsKeyless ∧
      narrow.IsKeyless ∧ ¬wide.KeyStandsIn "United Kingdom" ∧
      narrow.KeyStandsIn "United Kingdom" ∧
      selectedValue .standard [countryFilter] selected (gridFactor.withOptions [wide, kingdom]) =
        selectedValue .standard [countryFilter] selected (gridFactor.withOptions [kingdom]) ∧
      selectedValue .standard [countryFilter] selected (gridFactor.withOptions [narrow, kingdom]) =
        (Quantity.number 0.7).reading := by
  intro selected kingdom wide narrow
  have hselection : selection? .standard [countryFilter] selected = some "United Kingdom" := by
    decide +kernel
  have hselects := selection?_eq_some_iff.mp hselection
  have hwide : wide.IsKeyless := by
    rintro key ⟨⟩
    decide
  have hnarrow : narrow.IsKeyless := by
    rintro key ⟨⟩
    decide
  have hwidth : ¬wide.KeyStandsIn "United Kingdom" := by
    rintro ⟨key, ⟨⟩, hinside⟩
    exact absurd ((occursIn_iff_isInfix _ _).mpr hinside) (by decide)
  have hspace : narrow.KeyStandsIn "United Kingdom" :=
    ⟨" ", rfl, (occursIn_iff_isInfix _ _).mp (by decide)⟩
  obtain ⟨hkept, hdecides⟩ :=
    selectedValue_of_keyless .standard [countryFilter] selected gridFactor [kingdom]
  refine ⟨hselects, hwide, hnarrow, hwidth, hspace, ?_, ?_⟩
  · refine hkept _ (.inserted wide ⟨hwide, fun selection hother ↦ ?_⟩ (.kept kingdom .nil))
    rw [← selection?_eq_some_iff, hselection] at hother
    rwa [← Option.some.inj hother]
  · exact (hdecides _ [] narrow [kingdom] rfl hselects rfl hnarrow hspace).1 (by simp)

/-- An option with an empty key in front of a table decides what the table gives. -/
theorem selectedValue_of_empty_key :
    ¬∀ (settings : Settings) (parameters : List Parameter) (overrides : Overrides)
      (target : Parameter) (options longer : List DropdownOption), target.display = .dropdown →
      options ≠ [] → WithInserted DropdownOption.IsKeyless options longer →
      selectedValue settings parameters overrides (target.withOptions longer) =
        selectedValue settings parameters overrides (target.withOptions options) := by
  intro hunchanged
  let row : DropdownOption := { key := some "United Kingdom", value := some (.number 1.0) }
  let keyless : DropdownOption := { key := some "", value := some (.number 2.0) }
  have hkeyless : keyless.IsKeyless := by
    rintro key ⟨⟩
    rfl
  have hsame := hunchanged .standard [countryFilter] [("country", .text "United Kingdom")]
    gridFactor [row] [keyless, row] rfl (by simp) (.inserted keyless hkeyless (.kept row .nil))
  exact absurd hsame (by decide +kernel)

end Formulary
