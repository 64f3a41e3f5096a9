import Formulary.Text.Alphabetic
import Formulary.Text.Mark
import Formulary.Text.Newcomer
import Formulary.Text.Numeric

/-!
# Word characters

Two notions of what glues characters into a word. `isNameCharacter` is the one of names: letters,
numbers of any kind and the underscore. `isWordCharacter` is the one of word boundaries: it takes in
combining marks, every connector and the zero-width joiners, but only decimal digits, and no
newcomer to the standard. The ASCII classes `isAsciiLetter`, `isAsciiDigit` and `isPlainCharacter`
are those of formula text. On ASCII the notions agree, which is `isNameCharacter_of_ascii` and
`isWordCharacter_of_ascii`.
-/

set_option autoImplicit false
set_option relaxedAutoImplicit false

namespace Formulary.Text

/-! ### ASCII classes -/

/-- Whether a character is an ASCII digit. -/
def isAsciiDigit (character : Char) : Bool :=
  '0' ≤ character && character ≤ '9'

/-- Whether a character is an ASCII letter. -/
def isAsciiLetter (character : Char) : Bool :=
  ('a' ≤ character && character ≤ 'z') || ('A' ≤ character && character ≤ 'Z')

/-- Whether a character is an ASCII letter or the underscore. -/
def isPlainStart (character : Char) : Bool :=
  isAsciiLetter character || character == '_'

/-- Whether a character is an ASCII letter, an ASCII digit or the underscore. -/
def isPlainCharacter (character : Char) : Bool :=
  isPlainStart character || isAsciiDigit character

/-! ### Unicode classes -/

/-- Whether a character is a letter or a number. -/
def isAlphanumeric (character : Char) : Bool :=
  isAlphabetic character || isNumeric character

/-- Whether a character starts a name: a letter or the underscore. -/
def isNameStart (character : Char) : Bool :=
  isAlphabetic character || character == '_'

/-- Whether a character belongs to a name: a letter, a number or the underscore. -/
def isNameCharacter (character : Char) : Bool :=
  isAlphanumeric character || character == '_'

/-- Whether a character belongs to a word in the sense of word boundaries. -/
def isWordCharacter (character : Char) : Bool :=
  !isNewcomer character &&
    (isAlphabetic character || isMark character || isDecimalDigit character ||
      isConnector character || isJoinControl character)

/-- The three classes agree on every ASCII code point. -/
theorem classes_agree_below : ∀ code ∈ List.range 128,
    isNameCharacter (Char.ofNat code) = isPlainCharacter (Char.ofNat code) ∧
      isWordCharacter (Char.ofNat code) = isPlainCharacter (Char.ofNat code) := by
  decide +kernel

/-- On ASCII, names are made of plain characters. -/
theorem isNameCharacter_of_ascii (character : Char) (hascii : character.toNat < 128) :
    isNameCharacter character = isPlainCharacter character := by
  simpa using (classes_agree_below character.toNat (by simpa using hascii)).1

/-- On ASCII, words are made of plain characters. -/
theorem isWordCharacter_of_ascii (character : Char) (hascii : character.toNat < 128) :
    isWordCharacter character = isPlainCharacter character := by
  simpa using (classes_agree_below character.toNat (by simpa using hascii)).2

end Formulary.Text
