import Formulary.Comparison

/-!
# Titles of metrics

A title is made character by character: what a character becomes hangs only on whether a word starts
with it, `titleLetter`, and whether a word starts with the next one only on the character itself,
`titleFrom_cons`. Writing a character once more forgets how it was written before,
`titleLetter_titleLetter`, and this carries over to titles by induction, for either state at the
start. The main statement, `metricTitle_capitalizes`, says what stands at each place of a title,
that the title of a title is the title itself, and which names share a title: those that are the
same when capitals are written small and underscores as spaces, `leveled`.
-/

set_option autoImplicit false
set_option relaxedAutoImplicit false

namespace Formulary

open Formulary.Text

variable {starting : Bool} {character first second : Char} {text others : List Char}

/-! ### Capitals and small letters -/

theorem isUpper_iff (character : Char) :
    character.isUpper = true ↔ 65 ≤ character.toNat ∧ character.toNat ≤ 90 :=
  decide_eq_true_iff

theorem isLower_iff (character : Char) :
    character.isLower = true ↔ 97 ≤ character.toNat ∧ character.toNat ≤ 122 := by
  show (decide _ && decide _) = true ↔ _
  rw [Bool.and_eq_true, decide_eq_true_iff, decide_eq_true_iff]
  rfl

theorem isAlpha_iff (character : Char) :
    character.isAlpha = true ↔
      65 ≤ character.toNat ∧ character.toNat ≤ 90 ∨
        97 ≤ character.toNat ∧ character.toNat ≤ 122 := by
  show (character.isUpper || character.isLower) = true ↔ _
  rw [Bool.or_eq_true, isUpper_iff, isLower_iff]

theorem toUpper_of_not_isLower (hlower : ¬character.isLower = true) :
    character.toUpper = character :=
  dif_neg (mt (isLower_iff character).mpr hlower)

theorem toLower_of_not_isUpper (hupper : ¬character.isUpper = true) :
    character.toLower = character :=
  dif_neg (mt (isUpper_iff character).mpr hupper)

theorem toNat_toUpper_of_isLower (hlower : character.isLower = true) :
    character.toUpper.toNat = character.toNat - 32 := by
  have hbounds := (isLower_iff character).mp hlower
  have hupper : character.toUpper = _ := dif_pos hbounds
  have hstep : ('A'.val - 'a'.val).toNat = 2 ^ 32 - 32 := by decide
  rw [hupper, Char.toNat_mk, UInt32.toNat_add, hstep, Char.toNat_val]
  omega

theorem toNat_toLower_of_isUpper (hupper : character.isUpper = true) :
    character.toLower.toNat = character.toNat + 32 := by
  have hbounds := (isUpper_iff character).mp hupper
  have hlower : character.toLower = _ := dif_pos hbounds
  have hstep : ('a'.val - 'A'.val).toNat = 32 := by decide
  rw [hlower, Char.toNat_mk, UInt32.toNat_add, hstep, Char.toNat_val]
  omega

/-- The last five bits of an ASCII letter are its place in the alphabet, the others its case. -/
theorem toNat_toUpper_of_isAlpha (halpha : character.isAlpha = true) :
    character.toUpper.toNat = 64 + character.toNat % 32 := by
  rw [isAlpha_iff] at halpha
  by_cases hlower : character.isLower = true
  · rw [toNat_toUpper_of_isLower hlower]
    rw [isLower_iff] at hlower
    omega
  · rw [toUpper_of_not_isLower hlower]
    rw [isLower_iff] at hlower
    omega

theorem toNat_toLower_of_isAlpha (halpha : character.isAlpha = true) :
    character.toLower.toNat = 96 + character.toNat % 32 := by
  rw [isAlpha_iff] at halpha
  by_cases hupper : character.isUpper = true
  · rw [toNat_toLower_of_isUpper hupper]
    rw [isUpper_iff] at hupper
    omega
  · rw [toLower_of_not_isUpper hupper]
    rw [isUpper_iff] at hupper
    omega

theorem upperAscii_eq (character : Char) : upperAscii character = character.toUpper := by
  rw [upperAscii]
  split
  · rename_i hbounds
    rw [← toNat_toUpper_of_isLower ((isLower_iff character).mpr hbounds), Char.ofNat_toNat]
  · rename_i hbounds
    exact (toUpper_of_not_isLower (mt (isLower_iff character).mp hbounds)).symm

theorem lowerAscii_eq (character : Char) : lowerAscii character = character.toLower := by
  rw [lowerAscii]
  split
  · rename_i hbounds
    rw [← toNat_toLower_of_isUpper ((isUpper_iff character).mpr hbounds), Char.ofNat_toNat]
  · rename_i hbounds
    exact (toLower_of_not_isUpper (mt (isUpper_iff character).mp hbounds)).symm

theorem isAsciiAlphanumeric_eq (character : Char) :
    isAsciiAlphanumeric character = character.isAlphanum := by
  have hletter : isAsciiLetter character = character.isAlpha := by
    rw [Bool.eq_iff_iff, isAlpha_iff, or_comm, isAsciiLetter, Bool.or_eq_true, Bool.and_eq_true,
      Bool.and_eq_true, decide_eq_true_iff, decide_eq_true_iff, decide_eq_true_iff,
      decide_eq_true_iff]
    rfl
  rw [isAsciiAlphanumeric, hletter]
  rfl

/-! ### One character -/

/-- What a character of a name becomes in the title, given whether a word starts with it. -/
def titleLetter (starting : Bool) (character : Char) : Char :=
  if character = '_' then ' ' else if starting then character.toUpper else character.toLower

/-- A character without what a title does not show of it: the case of an ASCII letter, and whether
it is an underscore or a space. -/
def leveled (character : Char) : Char :=
  if character = '_' then ' ' else character.toLower

theorem titleLetter_of_not_isAlpha (halpha : character.isAlpha = false) (hmark : character ≠ '_') :
    titleLetter starting character = character := by
  have hcases : ¬(character.isUpper || character.isLower) = true := Bool.eq_false_iff.mp halpha
  rw [Bool.or_eq_true, not_or] at hcases
  rw [titleLetter, if_neg hmark, toUpper_of_not_isLower hcases.2, toLower_of_not_isUpper hcases.1,
    ite_self]

/-- A letter keeps its place in the alphabet and has the case that the start of a word decides. -/
theorem toNat_titleLetter (halpha : character.isAlpha = true) :
    (titleLetter starting character).toNat =
      (if starting = true then 64 else 96) + character.toNat % 32 := by
  have hmark : character ≠ '_' := by
    rintro rfl
    exact absurd halpha (by decide)
  rw [titleLetter, if_neg hmark]
  cases starting with
  | false => exact toNat_toLower_of_isAlpha halpha
  | true => exact toNat_toUpper_of_isAlpha halpha

theorem isAlpha_titleLetter_of_isAlpha (halpha : character.isAlpha = true) :
    (titleLetter starting character).isAlpha = true := by
  rw [isAlpha_iff] at halpha ⊢
  rw [toNat_titleLetter ((isAlpha_iff character).mpr halpha)]
  split <;> omega

/-- A letter is a capital if a word starts with it, and a small letter if not. -/
theorem titleLetter_of_isAlpha (halpha : character.isAlpha = true) :
    (titleLetter starting character).toLower = character.toLower ∧
      (titleLetter starting character).isUpper = starting ∧
      (titleLetter starting character).isLower = !starting := by
  have hshown := @toNat_titleLetter starting character halpha
  have hletter := (isAlpha_iff character).mp halpha
  refine ⟨?_, ?_, ?_⟩
  · rw [← Char.toNat_inj, toNat_toLower_of_isAlpha (isAlpha_titleLetter_of_isAlpha halpha),
      toNat_toLower_of_isAlpha halpha, hshown]
    split <;> omega
  · rw [Bool.eq_iff_iff, isUpper_iff, hshown]
    cases starting <;> simp <;> omega
  · rw [Bool.eq_iff_iff, isLower_iff, hshown]
    cases starting <;> simp <;> omega

/-- The title shows ASCII letters for the ASCII letters of the name, and for nothing else. -/
theorem isAlpha_titleLetter (starting : Bool) (character : Char) :
    (titleLetter starting character).isAlpha = character.isAlpha := by
  cases halpha : character.isAlpha with
  | true => exact isAlpha_titleLetter_of_isAlpha halpha
  | false =>
    by_cases hmark : character = '_'
    · rw [hmark]
      rfl
    · rw [titleLetter_of_not_isAlpha halpha hmark, halpha]

theorem isAlphanum_titleLetter (starting : Bool) (character : Char) :
    (titleLetter starting character).isAlphanum = character.isAlphanum := by
  have halphanum (shown : Char) : shown.isAlphanum = (shown.isAlpha || shown.isDigit) := rfl
  cases halpha : character.isAlpha with
  | true => rw [halphanum, halphanum, isAlpha_titleLetter, halpha, Bool.true_or, Bool.true_or]
  | false =>
    by_cases hmark : character = '_'
    · rw [hmark]
      rfl
    · rw [titleLetter_of_not_isAlpha halpha hmark]

theorem titleLetter_ne_underscore (starting : Bool) (character : Char) :
    titleLetter starting character ≠ '_' := by
  intro hshown
  have halpha := isAlpha_titleLetter starting character
  rw [hshown] at halpha
  by_cases hmark : character = '_'
  · rw [hmark] at hshown
    exact absurd hshown (by decide : ' ' ≠ '_')
  · exact hmark ((titleLetter_of_not_isAlpha halpha.symm hmark).symm.trans hshown)

/-- Written once more, a character is as it would be if it were written the second time only. -/
theorem titleLetter_titleLetter (starting before : Bool) (character : Char) :
    titleLetter starting (titleLetter before character) = titleLetter starting character := by
  cases halpha : character.isAlpha with
  | true =>
    rw [← Char.toNat_inj, toNat_titleLetter (isAlpha_titleLetter_of_isAlpha halpha),
      toNat_titleLetter halpha, toNat_titleLetter halpha]
    split <;> split <;> omega
  | false =>
    by_cases hmark : character = '_'
    · rw [hmark]
      cases starting <;> rfl
    · rw [titleLetter_of_not_isAlpha halpha hmark]

/-- Leveling, which is writing inside a word, loses just what a title does not show. -/
theorem titleLetter_eq_iff (starting : Bool) :
    titleLetter starting first = titleLetter starting second ↔ leveled first = leveled second := by
  change _ ↔ titleLetter false first = titleLetter false second
  constructor
  · intro hsame
    rw [← titleLetter_titleLetter false starting, hsame, titleLetter_titleLetter]
  · intro hsame
    rw [← titleLetter_titleLetter starting false, hsame, titleLetter_titleLetter]

/-! ### Titles -/

theorem titleFrom_cons (starting : Bool) (character : Char) (text : List Char) :
    titleFrom starting (character :: text) =
      titleLetter starting character :: titleFrom (!character.isAlphanum) text := by
  rw [titleFrom, isAsciiAlphanumeric_eq, upperAscii_eq, lowerAscii_eq]
  split
  · rename_i hmark
    rw [hmark]
    rfl
  · rename_i hmark
    cases hclass : character.isAlphanum with
    | true =>
      rw [if_pos rfl, titleLetter, if_neg hmark]
      rfl
    | false =>
      have hparts : (character.isAlpha || character.isDigit) = false := hclass
      rw [titleLetter_of_not_isAlpha (Bool.or_eq_false_iff.mp hparts).1 hmark]
      rfl

/-- Whether a word starts at a position of a text: what stands before it is no ASCII letter or
digit. At the first position `starting` decides. -/
def wordStart (starting : Bool) (text : List Char) : Nat → Bool
  | 0 => starting
  | before + 1 => !text[before]?.any Char.isAlphanum

theorem getElem?_titleFrom (starting : Bool) (text : List Char) (position : Nat) :
    (titleFrom starting text)[position]? =
      text[position]?.map (titleLetter (wordStart starting text position)) := by
  induction text generalizing starting position with
  | nil => rfl
  | cons character text ih =>
    rw [titleFrom_cons]
    cases position with
    | zero => rfl
    | succ position =>
      rw [List.getElem?_cons_succ, List.getElem?_cons_succ, ih]
      cases position <;> rfl

theorem length_titleFrom (starting : Bool) (text : List Char) :
    (titleFrom starting text).length = text.length := by
  induction text generalizing starting with
  | nil => rfl
  | cons character text ih => rw [titleFrom_cons, List.length_cons, List.length_cons, ih]

theorem underscore_not_mem_titleFrom (starting : Bool) (text : List Char) :
    '_' ∉ titleFrom starting text := by
  induction text generalizing starting with
  | nil => exact List.not_mem_nil
  | cons character text ih =>
    rw [titleFrom_cons, List.mem_cons, not_or]
    exact ⟨(titleLetter_ne_underscore starting character).symm, ih _⟩

theorem titleFrom_titleFrom (starting : Bool) (text : List Char) :
    titleFrom starting (titleFrom starting text) = titleFrom starting text := by
  induction text generalizing starting with
  | nil => rfl
  | cons character text ih =>
    rw [titleFrom_cons, titleFrom_cons, isAlphanum_titleLetter, titleLetter_titleLetter, ih]

/-- Two texts have one title if they are the same when leveled. The class of the last character read
decides how the next one is written, and it is the same on both sides. -/
theorem titleFrom_eq_iff (starting : Bool) (text others : List Char) :
    titleFrom starting text = titleFrom starting others ↔
      text.map leveled = others.map leveled := by
  induction text generalizing starting others with
  | nil =>
    cases others with
    | nil => exact iff_of_true rfl rfl
    | cons second others =>
      rw [titleFrom_cons]
      exact iff_of_false (List.cons_ne_nil _ _).symm (List.cons_ne_nil _ _).symm
  | cons first text ih =>
    cases others with
    | nil =>
      rw [titleFrom_cons]
      exact iff_of_false (List.cons_ne_nil _ _) (List.cons_ne_nil _ _)
    | cons second others =>
      rw [titleFrom_cons, titleFrom_cons, List.map_cons, List.map_cons, List.cons_eq_cons,
        List.cons_eq_cons, titleLetter_eq_iff]
      refine and_congr_right fun hsame ↦ ?_
      have hclass : first.isAlphanum = second.isAlphanum := by
        rw [← isAlphanum_titleLetter true, (titleLetter_eq_iff true).mpr hsame,
          isAlphanum_titleLetter]
      rw [hclass, ih]

/-- The title of a name has as many characters as the name and no underscore. An underscore of the
name becomes a space, and all else but ASCII letters stays as it is. An ASCII letter becomes the
capital if it comes first or directly behind what is no ASCII letter or digit, and the small letter
otherwise. So the title of a title is the title itself, and two names share their title just if they
are the same but for the case of ASCII letters and for underscores in place of spaces. -/
theorem metricTitle_capitalizes (name : String) :
    (metricTitle name).length = name.length ∧
    '_' ∉ (metricTitle name).toList ∧
    (∀ position character, name.toList[position]? = some character →
      ∃ shown, (metricTitle name).toList[position]? = some shown ∧
        (character = '_' → shown = ' ') ∧
        (character ≠ '_' → character.isAlpha = false → shown = character) ∧
        (character.isAlpha = true → shown.toLower = character.toLower ∧
          shown.isUpper = wordStart true name.toList position ∧
          shown.isLower = !wordStart true name.toList position)) ∧
    metricTitle (metricTitle name) = metricTitle name ∧
    ∀ other, metricTitle name = metricTitle other ↔
      name.toList.map leveled = other.toList.map leveled := by
  have htitle (name : String) : (metricTitle name).toList = titleFrom true name.toList :=
    String.toList_ofList
  refine ⟨?_, ?_, fun position character hcharacter ↦ ?_, ?_, fun other ↦ ?_⟩
  · rw [← String.length_toList, htitle, length_titleFrom, String.length_toList]
  · rw [htitle]
    exact underscore_not_mem_titleFrom true name.toList
  · refine ⟨_, by rw [htitle, getElem?_titleFrom, hcharacter, Option.map_some], ?_, ?_, ?_⟩
    · rintro rfl
      rfl
    · exact fun hmark halpha ↦ titleLetter_of_not_isAlpha halpha hmark
    · exact titleLetter_of_isAlpha
  · rw [← String.toList_inj, htitle, htitle, titleFrom_titleFrom]
  · rw [← String.toList_inj, htitle, htitle, titleFrom_eq_iff]

/-- A digit goes on with a word, so that no capital stands behind it. -/
example : metricTitle "co2_SAVINGS (Ärger)" = "Co2 Savings (ÄRger)" := by decide +kernel

end Formulary
