import Mathlib.Computability.Language

/-!
# Languages of texts

The forms of texts are written as languages, with sums, products and stars, from the texts of one
character of a class, `oneOf`. A text of the star of a class is one all of whose characters are of
the class, `mem_kstar_oneOf`. `IsLongest` says that a word is the longest beginning of a text that
belongs to a language.
-/

set_option autoImplicit false
set_option relaxedAutoImplicit false

namespace Formulary.Text

open Computability

variable {inClass : Char → Bool} {language : Language Char} {text word : List Char}
  {character : Char}

/-! ### Classes -/

/-- The texts of one character of a class. -/
def oneOf (inClass : Char → Bool) : Language Char :=
  {text | ∃ character, inClass character = true ∧ text = [character]}

/-- The texts of characters of a class, at least one. -/
def someOf (inClass : Char → Bool) : Language Char :=
  oneOf inClass * (oneOf inClass)∗

theorem mem_kstar_oneOf : text ∈ (oneOf inClass)∗ ↔ text.all inClass = true := by
  rw [Language.mem_kstar, List.all_eq_true]
  constructor
  · rintro ⟨parts, rfl, hparts⟩ character hcharacter
    obtain ⟨part, hpart, hmember⟩ := List.mem_flatten.mp hcharacter
    obtain ⟨only, honly, rfl⟩ := hparts part hpart
    rwa [List.mem_singleton.mp hmember]
  · intro hall
    refine ⟨text.map ([·]), (List.flatMap_singleton' text).symm, fun part hpart ↦ ?_⟩
    obtain ⟨character, hcharacter, rfl⟩ := List.mem_map.mp hpart
    exact ⟨character, hall character hcharacter, rfl⟩

theorem mem_oneOf_mul : text ∈ oneOf inClass * language ↔
    ∃ character rest, inClass character = true ∧ rest ∈ language ∧ text = character :: rest := by
  rw [Language.mem_mul]
  constructor
  · rintro ⟨_, ⟨character, hcharacter, rfl⟩, rest, hrest, rfl⟩
    exact ⟨character, rest, hcharacter, hrest, rfl⟩
  · rintro ⟨character, rest, hcharacter, hrest, rfl⟩
    exact ⟨[character], ⟨character, hcharacter, rfl⟩, rest, hrest, rfl⟩

theorem mem_someOf : text ∈ someOf inClass ↔ text ≠ [] ∧ text.all inClass = true := by
  rw [someOf, mem_oneOf_mul]
  constructor
  · rintro ⟨character, rest, hcharacter, hrest, rfl⟩
    rw [List.all_cons, hcharacter, mem_kstar_oneOf.mp hrest]
    exact ⟨List.cons_ne_nil _ _, rfl⟩
  · rintro ⟨hsome, hall⟩
    obtain ⟨character, rest, rfl⟩ := List.exists_cons_of_ne_nil hsome
    rw [List.all_cons, Bool.and_eq_true] at hall
    exact ⟨character, rest, hall.1, mem_kstar_oneOf.mpr hall.2, rfl⟩

theorem cons_mem_someOf :
    character :: text ∈ someOf inClass ↔ inClass character = true ∧ text.all inClass = true := by
  rw [mem_someOf, List.all_cons, Bool.and_eq_true]
  exact and_iff_right (List.cons_ne_nil character text)

/-! ### Options -/

/-- If a language is what is written for some things, then with the empty text it is what is written
for at most one of them. -/
theorem mem_one_add_iff {α : Type} {good : α → Prop} (write : Option α → List Char)
    (hnone : write none = [])
    (hsome : ∀ text, text ∈ language ↔ ∃ value, good value ∧ text = write (some value)) :
    text ∈ 1 + language ↔
      ∃ value? : Option α, (∀ value ∈ value?, good value) ∧ text = write value? := by
  rw [Language.mem_add, Language.mem_one, hsome]
  constructor
  · rintro (rfl | ⟨value, hvalue, rfl⟩)
    · exact ⟨none, by simp, hnone.symm⟩
    · exact ⟨some value, by simpa using hvalue, rfl⟩
  · rintro ⟨_ | value, hvalue, rfl⟩
    · exact Or.inl hnone
    · exact Or.inr ⟨value, hvalue value rfl, rfl⟩

/-! ### Longest beginnings -/

/-- A word is the longest beginning of a text that belongs to a language. -/
structure IsLongest (language : Language Char) (text word : List Char) : Prop where
  mem : word ∈ language
  begins : word <+: text
  longest : ∀ other ∈ language, other <+: text → other.length ≤ word.length

/-- There is one longest beginning at most. -/
theorem IsLongest.eq {other : List Char} (hword : IsLongest language text word)
    (hother : IsLongest language text other) : word = other :=
  (List.prefix_of_prefix_length_le hword.begins hother.begins
    (hother.longest word hword.mem hword.begins)).eq_of_length_le
      (hword.longest other hother.mem hother.begins)

end Formulary.Text
