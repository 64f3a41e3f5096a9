import Formulary.Formula.Token

/-!
# How the classes of characters lie to each other

White space and marks belong to no name, a digit starts no name but belongs to names, and whatever
starts a name belongs to it. On ASCII a name starts with a plain start and goes on with plain
characters. A statement about ASCII is checked on all its code points at once, `of_ascii`, and one
about white space on the few code points of that class, `of_isWhiteSpace`.
-/

set_option autoImplicit false
set_option relaxedAutoImplicit false

namespace Formulary.Text

variable {character : Char}

/-! ### Checking all code points -/

/-- What holds of the first 128 code points holds of every ASCII character. -/
theorem of_ascii (property : Char → Prop)
    (hcodes : ∀ code ∈ List.range 128, property (Char.ofNat code))
    (hascii : character.toNat < 128) : property character := by
  have hcode := hcodes character.toNat (List.mem_range.mpr hascii)
  rwa [Char.ofNat_toNat] at hcode

/-- What holds of the code points in the ranges of white space holds of every white character. -/
theorem of_isWhiteSpace (property : Char → Prop)
    (hcodes : ∀ range ∈ whiteSpaceRanges, ∀ offset ∈ List.range (range.2 + 1 - range.1),
      property (Char.ofNat (range.1 + offset)))
    (hwhite : isWhiteSpace character = true) : property character := by
  obtain ⟨range, hrange, hfirst, hlast⟩ := exists_range_of_inRanges hwhite
  have hcode := hcodes range hrange (character.toNat - range.1) (List.mem_range.mpr (by omega))
  rwa [Nat.add_sub_cancel' hfirst, Char.ofNat_toNat] at hcode

theorem isAscii_of_all {text : List Char}
    (hall : text.all (fun character ↦ character.toNat < 128) = true) :
    ∀ character ∈ text, character.toNat < 128 :=
  fun character hcharacter ↦ of_decide_eq_true (List.all_eq_true.mp hall character hcharacter)

/-- What one class implies for a character, it implies for one that may be missing. -/
theorem any_imp {inClass other : Char → Bool} {character? : Option Char}
    (himp : ∀ character ∈ character?, inClass character = true → other character = true)
    (hany : character?.any inClass = true) : character?.any other = true := by
  cases character? with
  | none => cases hany
  | some character => exact himp character rfl hany

/-! ### Runs of one class -/

/-- A run of a class that nothing of the class follows is what is taken off the front. -/
theorem takeWhile_run {inClass : Char → Bool} {run rest : List Char}
    (hrun : run.all inClass = true) (hrest : rest.head?.any inClass = false) :
    (run ++ rest).takeWhile inClass = run ∧ (run ++ rest).dropWhile inClass = rest := by
  rw [List.all_eq_true] at hrun
  rw [List.takeWhile_append_of_pos hrun, List.dropWhile_append_of_pos hrun]
  cases rest with
  | nil => simp
  | cons character rest =>
    have hother : inClass character = false := hrest
    simp [hother]

theorem head?_dropWhile_any (inClass : Char → Bool) (text : List Char) :
    (text.dropWhile inClass).head?.any inClass = false := by
  have hfirst := List.head?_dropWhile_not inClass text
  cases hrest : (text.dropWhile inClass).head? with
  | none => rfl
  | some character => simpa [hrest] using hfirst

theorem isEmpty_takeWhile (inClass : Char → Bool) (text : List Char) :
    (text.takeWhile inClass).isEmpty = !text.head?.any inClass := by
  cases text with
  | nil => rfl
  | cons character text => by_cases hclass : inClass character = true <;> simp [hclass]

/-! ### White space, digits and names -/

/-- White space belongs to no name. -/
theorem isNameCharacter_of_isWhiteSpace (hwhite : isWhiteSpace character = true) :
    isNameCharacter character = false :=
  of_isWhiteSpace (fun character ↦ isNameCharacter character = false) (by decide +kernel) hwhite

/-- What starts a name belongs to it. -/
theorem isNameCharacter_of_isNameStart (hstart : isNameStart character = true) :
    isNameCharacter character = true := by
  simp only [isNameStart, isNameCharacter, isAlphanumeric, Bool.or_eq_true] at hstart ⊢
  rcases hstart with hletter | hunderscore
  · exact Or.inl (Or.inl hletter)
  · exact Or.inr hunderscore

theorem isNameStart_of_ascii (hascii : character.toNat < 128) :
    isNameStart character = isPlainStart character :=
  of_ascii (fun character ↦ isNameStart character = isPlainStart character) (by decide +kernel)
    hascii

theorem isAscii_of_isAsciiDigit (hdigit : isAsciiDigit character = true) :
    character.toNat < 128 := by
  simp only [isAsciiDigit, Bool.and_eq_true, decide_eq_true_eq] at hdigit
  have hcode : character.toNat ≤ 57 := hdigit.2
  omega

/-- A digit belongs to names but starts none. -/
theorem digit_in_name (hdigit : isAsciiDigit character = true) :
    isNameStart character = false ∧ isNameCharacter character = true :=
  of_ascii
    (fun character ↦ isAsciiDigit character = true →
      isNameStart character = false ∧ isNameCharacter character = true)
    (by decide +kernel) (isAscii_of_isAsciiDigit hdigit) hdigit

theorem isPlainStart_of_isAsciiDigit (hdigit : isAsciiDigit character = true) :
    isPlainStart character = false := by
  rw [← isNameStart_of_ascii (isAscii_of_isAsciiDigit hdigit)]
  exact (digit_in_name hdigit).1

theorem isWhiteSpace_of_isNameCharacter (hname : isNameCharacter character = true) :
    isWhiteSpace character = false := by
  refine Bool.eq_false_iff.mpr fun hwhite ↦ ?_
  rw [isNameCharacter_of_isWhiteSpace hwhite] at hname
  cases hname

theorem isWhiteSpace_of_isAsciiDigit (hdigit : isAsciiDigit character = true) :
    isWhiteSpace character = false :=
  isWhiteSpace_of_isNameCharacter (digit_in_name hdigit).2

theorem isAsciiDigit_of_not_isNameCharacter (hname : isNameCharacter character = false) :
    isAsciiDigit character = false := by
  refine Bool.eq_false_iff.mpr fun hdigit ↦ ?_
  rw [(digit_in_name hdigit).2] at hname
  cases hname

theorem isAsciiDigit_of_isNameStart (hstart : isNameStart character = true) :
    isAsciiDigit character = false := by
  refine Bool.eq_false_iff.mpr fun hdigit ↦ ?_
  rw [(digit_in_name hdigit).1] at hstart
  cases hstart

end Formulary.Text

namespace Formulary.Formula

open Formulary.Text

/-- A mark is an ASCII character that belongs to no name, no number and no white space. -/
theorem classes_of_markOf? {character : Char} {mark : Mark}
    (hmark : markOf? character = some mark) :
    character.toNat < 128 ∧ isNameCharacter character = false ∧ isWhiteSpace character = false ∧
      character ≠ '.' := by
  unfold markOf? at hmark
  split at hmark <;> first | decide +kernel | cases hmark

end Formulary.Formula
