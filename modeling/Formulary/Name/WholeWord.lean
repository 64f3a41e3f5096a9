import Formulary.Text.WordCharacter

/-!
# Whole words

A word stands alone in a text where no character of a name is glued to one of its edges; an edge
that is itself no character of a name glues to nothing. `containsWord` searches a text from the left
for an occurrence that stands alone. An occurrence that does not still uses up its characters: the
search goes on behind it.
-/

set_option autoImplicit false
set_option relaxedAutoImplicit false

namespace Formulary.Name

open Formulary.Text

/-- Whether a word starts with a character of a name. -/
def opensName (word : List Char) : Bool :=
  word.head?.any isNameCharacter

/-- Whether a word ends with a character of a name. -/
def closesName (word : List Char) : Bool :=
  word.getLast?.any isNameCharacter

/-- Whether a word stands alone between its neighbours. -/
def standsAlone (word : List Char) (before after : Option Char) : Bool :=
  !(opensName word && before.any isNameCharacter) &&
    !(closesName word && after.any isNameCharacter)

/-- Whether a word stands alone somewhere in a text that follows the character `before`; the search
starts behind the first `skipped` characters. -/
def containsWordFrom (word : List Char) : Option Char → Nat → List Char → Bool
  | _, _, [] => false
  | _, skipped + 1, character :: rest => containsWordFrom word (some character) skipped rest
  | before, 0, character :: rest =>
    if word.isPrefixOf (character :: rest) then
      standsAlone word before ((character :: rest).drop word.length).head? ||
        containsWordFrom word (some character) (word.length - 1) rest
    else containsWordFrom word (some character) 0 rest

/-- Whether a text contains a word as a whole word; an empty word never occurs. -/
def containsWord (text word : String) : Bool :=
  !word.toList.isEmpty && containsWordFrom word.toList none 0 text.toList

end Formulary.Name
