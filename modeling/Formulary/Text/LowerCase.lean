import Formulary.Text.Case

/-!
# Lower-casing a text

`lower` maps every character to its small letters. Two characters need more than the simple mapping:
the capital I with a dot becomes an `i` and a combining dot, and a capital sigma becomes the final
form where it ends a word and the common form elsewhere.
-/

set_option autoImplicit false
set_option relaxedAutoImplicit false

namespace Formulary.Text

/-- Whether the first character that is not passed over has a case. -/
def meetsCased (characters : List Char) : Bool :=
  (characters.dropWhile isCaseIgnorable).head?.any isCased

/-- The small sigma that stands between what precedes it, read backwards, and what follows. -/
def lowerSigma (before after : List Char) : Char :=
  if meetsCased before && !meetsCased after then 'ς' else 'σ'

/-- The small letters of a character wherever it stands. -/
def lowerCharacter (character : Char) : List Char :=
  if character = 'İ' then ['i', '\u0307'] else [Char.ofNat (lowerCode character.toNat)]

/-- The small letters of a text that follows the characters `before`, given backwards. -/
def lowerAfter (before : List Char) : List Char → List Char
  | [] => []
  | character :: rest =>
    (if character = 'Σ' then [lowerSigma before rest] else lowerCharacter character) ++
      lowerAfter (character :: before) rest

/-- A text in small letters. -/
def lower (text : List Char) : List Char :=
  lowerAfter [] text

/-- Lower-casing leaves no text empty but the empty one. -/
theorem lower_eq_nil_iff (text : List Char) : lower text = [] ↔ text = [] := by
  cases text with
  | nil => simp [lower, lowerAfter]
  | cons character rest =>
    simp only [lower, lowerAfter, lowerCharacter]
    split
    · simp
    · split <;> simp

end Formulary.Text
