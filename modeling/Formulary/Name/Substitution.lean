import Formulary.Text.Arranged
import Formulary.Text.WhiteSpace
import Formulary.Text.WordCharacter

/-!
# Replacing names in a text

A `Substitution` replaces many names at once in a single pass from left to right. Longer names come
first, so that a short name never eats into a long one that contains it, and what has been put in is
not searched again. A name is found only where it stands at word boundaries: next to an edge that is
a character of a name, word and other characters must change over.

Names may be many and long without bound. Where they are compiled into one search pattern, a
pattern beyond the size limit of the compiler is refused and the substitution then changes no text;
this case is left out here.
-/

set_option autoImplicit false
set_option relaxedAutoImplicit false

namespace Formulary.Name

open Formulary.Text

/-! ### Rules -/

/-- A name and what is written in its place. -/
structure Rule where
  name : List Char
  replacement : List Char
  deriving Repr, DecidableEq

/-- The length of a text in bytes of UTF-8. -/
def utf8Length : List Char → Nat
  | [] => 0
  | character :: rest => character.utf8Size + utf8Length rest

/-- Whether a text comes before another one, or is the same, in the order of their characters. -/
def notAfter : List Char → List Char → Bool
  | [], _ => true
  | _ :: _, [] => false
  | first :: rest, second :: others =>
    first < second || (first == second && notAfter rest others)

/-- Whether a name comes before another: the longer one, and of two equally long ones the one that
is first in the order of their characters. -/
def longerFirst (first second : List Char) : Bool :=
  utf8Length second < utf8Length first ||
    (utf8Length first == utf8Length second && notAfter first second)

/-- Rules for distinct names, longest name first. -/
structure Substitution where
  rules : List Rule
  deriving Repr

/-- The pairs with names that are not blank, each as a rule; of several pairs with one name the
first one counts. -/
def distinctRules : List (String × String) → List Rule
  | [] => []
  | (name, replacement) :: rest =>
    let later := distinctRules rest
    if isBlank name.toList then later
    else ⟨name.toList, replacement.toList⟩ :: later.filter (·.name != name.toList)

/-- The substitution of names by replacements. -/
def Substitution.ofPairs (pairs : List (String × String)) : Substitution where
  rules := arranged (fun first second ↦ longerFirst first.name second.name) (distinctRules pairs)

/-- Whether a substitution has no names to replace. -/
def Substitution.isEmpty (substitution : Substitution) : Bool :=
  substitution.rules.isEmpty

/-! ### Occurrences -/

/-- Whether there is a word boundary between two characters, or between one and an end of the
text. -/
def isBoundary (before after : Option Char) : Bool :=
  before.any isWordCharacter != after.any isWordCharacter

/-- Whether a name stands, at word boundaries, at the front of a text that follows `before`. -/
def occursAt (name : List Char) (before : Option Char) (text : List Char) : Bool :=
  name.isPrefixOf text &&
    (!name.head?.any isNameCharacter || isBoundary before text.head?) &&
    (!name.getLast?.any isNameCharacter ||
      isBoundary name.getLast? (text.drop name.length).head?)

/-! ### Application -/

/-- A text that follows `before` with every name replaced; its first `skipped` characters belong to
a name that has been replaced already. -/
def replaceFrom (rules : List Rule) : Option Char → Nat → List Char → List Char
  | _, _, [] => []
  | _, skipped + 1, character :: rest => replaceFrom rules (some character) skipped rest
  | before, 0, character :: rest =>
    match rules.find? fun rule ↦ occursAt rule.name before (character :: rest) with
    | some rule =>
      rule.replacement ++ replaceFrom rules (some character) (rule.name.length - 1) rest
    | none => character :: replaceFrom rules (some character) 0 rest

/-- The characters of a text with every name replaced. -/
def Substitution.replace (substitution : Substitution) (text : List Char) : List Char :=
  replaceFrom substitution.rules none 0 text

/-- A text with every name replaced. -/
def Substitution.apply (substitution : Substitution) (text : String) : String :=
  String.ofList (substitution.replace text.toList)

end Formulary.Name
