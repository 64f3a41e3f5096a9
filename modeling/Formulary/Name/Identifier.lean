import Formulary.Text.Search
import Formulary.Text.WhiteSpace

/-!
# Identifiers of names

Display names are free text. `identifier` turns one into a form that a formula can hold as a single
word: every run of white space, commas and underscores becomes one underscore, and none is left at
either end. `underscored` replaces white space alone. `segments` are the pieces of a name between
its separators, of which the identifier is made.
-/

set_option autoImplicit false
set_option relaxedAutoImplicit false

namespace Formulary.Name

open Formulary.Text

/-- Whether a character separates the segments of a name. -/
def isSeparator (character : Char) : Bool :=
  isWhiteSpace character || character == ',' || character == '_'

/-- The characters of the identifier of a name. -/
def identifierCharacters (name : List Char) : List Char :=
  strip '_' (collapseRuns isSeparator '_' name)

/-- The identifier of a name; empty where the name holds separators only. -/
def identifier (name : String) : String :=
  String.ofList (identifierCharacters name.toList)

/-- A name with an underscore for each run of white space. -/
def underscored (name : String) : String :=
  String.ofList (collapseRuns isWhiteSpace '_' name.toList)

/-- The pieces of a name between its separators, the empty ones left out. -/
def segments (name : List Char) : List (List Char) :=
  (name.splitOnP isSeparator).filter (!·.isEmpty)

/-- Whether a name holds nothing but white space. -/
def isBlankName (name : String) : Bool :=
  isBlank name.toList

/-- The texts that a formula may use for a name: the name, its identifier and the name with
underscores for white space. -/
def aliases (name : String) : List String :=
  [name, identifier name, underscored name]

end Formulary.Name
