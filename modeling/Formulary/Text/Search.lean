/-!
# Searching and cutting texts

`occursIn` tests whether one text is part of another, `collapseRuns` writes each run of characters
of a class as one mark, `strip` takes a mark off both ends, and `splitFirst` cuts a text at the
first occurrence of a character. The main statement, `occursIn_iff`, ties the test to the
decomposition it stands for.
-/

set_option autoImplicit false
set_option relaxedAutoImplicit false

namespace Formulary.Text

/-! ### Parts of a text -/

/-- Whether one text is part of another. -/
def occursIn (part : List Char) : List Char → Bool
  | [] => part.isEmpty
  | character :: rest => part.isPrefixOf (character :: rest) || occursIn part rest

/-- A text is part of another when the other one splits around it. -/
theorem occursIn_iff (part text : List Char) :
    occursIn part text = true ↔ ∃ before after, text = before ++ part ++ after := by
  induction text with
  | nil => simp [occursIn]
  | cons character rest ih =>
    rw [occursIn, Bool.or_eq_true, ih, List.isPrefixOf_iff_prefix]
    constructor
    · rintro (⟨after, htext⟩ | ⟨before, after, htext⟩)
      · exact ⟨[], after, by simp [htext]⟩
      · exact ⟨character :: before, after, by simp [htext]⟩
    · rintro ⟨before, after, htext⟩
      cases before with
      | nil => exact Or.inl ⟨after, by simpa using htext.symm⟩
      | cons first others =>
        refine Or.inr ⟨others, after, ?_⟩
        simp only [List.cons_append, List.cons.injEq] at htext
        exact htext.2

/-- A text is part of another when it is an infix of it. -/
theorem occursIn_iff_isInfix (part text : List Char) : occursIn part text = true ↔ part <:+: text :=
  (occursIn_iff part text).trans (exists_congr fun _ ↦ exists_congr fun _ ↦ eq_comm)

/-! ### Runs of characters -/

/-- A text in which each run of characters of a class is written as one mark; `inside` tells whether
the text continues such a run. -/
def collapseFrom (inClass : Char → Bool) (mark : Char) : Bool → List Char → List Char
  | _, [] => []
  | inside, character :: rest =>
    if inClass character then
      if inside then collapseFrom inClass mark true rest
      else mark :: collapseFrom inClass mark true rest
    else character :: collapseFrom inClass mark false rest

/-- A text in which each run of characters of a class is written as one mark. -/
def collapseRuns (inClass : Char → Bool) (mark : Char) (text : List Char) : List Char :=
  collapseFrom inClass mark false text

/-- A text without the occurrences of a mark at its two ends. -/
def strip (mark : Char) (text : List Char) : List Char :=
  ((text.dropWhile (· == mark)).reverse.dropWhile (· == mark)).reverse

/-! ### Cutting -/

/-- The parts of a text before and after the first occurrence of a character. -/
def splitFirst (separator : Char) : List Char → Option (List Char × List Char)
  | [] => none
  | character :: rest =>
    if character = separator then some ([], rest)
    else (splitFirst separator rest).map fun (head, tail) ↦ (character :: head, tail)

/-- Cutting keeps all but the separator. -/
theorem splitFirst_eq_some {separator : Char} {text head tail : List Char}
    (hcut : splitFirst separator text = some (head, tail)) : text = head ++ separator :: tail := by
  induction text generalizing head with
  | nil => simp [splitFirst] at hcut
  | cons character rest ih =>
    rw [splitFirst] at hcut
    split at hcut
    · rename_i hseparator
      simp only [Option.some.injEq, Prod.mk.injEq] at hcut
      obtain ⟨rfl, rfl⟩ := hcut
      simp [hseparator]
    · obtain ⟨⟨first, second⟩, hlater, hparts⟩ := Option.map_eq_some_iff.mp hcut
      simp only [Prod.mk.injEq] at hparts
      obtain ⟨rfl, rfl⟩ := hparts
      simp [ih hlater]

end Formulary.Text
