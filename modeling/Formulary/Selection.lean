import Formulary.Settings.Basic
import Formulary.Solution.Basic

/-!
# Selecting rows of option tables

The options of a dropdown form a table whose keys name values of a filter, the selector. Choosing
`UK` for the selector gives the dropdown the value of the first row whose key answers to `UK`, for
instance `UK: 181`. None of this shows in formula text. `keyMatch` compares a key with a selection
and `selectedValue` is the value that a dropdown gets.
-/

set_option autoImplicit false
set_option relaxedAutoImplicit false

namespace Formulary

open Formulary.Text

/-! ### Keys and selections -/

/-- How a key answers to a selection: it is the same text, it has the selection before a colon, the
selection is one of several that it lists, or one contains the other. -/
inductive KeyMatch where
  | same
  | beforeColon
  | listed
  | containing
  deriving Repr, DecidableEq

/-- How a key in small letters answers to a selection in small letters, strictest first. -/
def loweredKeyMatch (key selection : List Char) : Option KeyMatch :=
  if key = selection then some .same
  else if (splitFirst ':' key).any fun (head, _) ↦ trim head == selection then some .beforeColon
  else if key.contains ',' && (key.splitOn ',').any fun part ↦ trim part == selection then
    some .listed
  else if occursIn selection key || occursIn key selection then some .containing
  else none

/-- How a key answers to a selection, whatever the case of their letters. -/
def keyMatch (key selection : String) : Option KeyMatch :=
  loweredKeyMatch (lower key.toList) (lower selection.toList)

/-! ### The selector and the selected row -/

/-- Whether the name of a parameter contains the keyword of the selector. -/
def namesSelector (settings : Settings) (parameter : Parameter) : Bool :=
  occursIn (lower settings.selectorKeyword.toList) (lower parameter.name.toList)

/-- The selector: the first filter whose name contains the keyword. If that one has no options there
is no selector, whatever other filters there are. -/
def selector? (settings : Settings) (parameters : List Parameter) : Option Parameter :=
  (parameters.find? fun parameter ↦ parameter.isFilter && namesSelector settings parameter).filter
    fun parameter ↦ !parameter.options.isEmpty

/-- What is selected: the text entered for the selector, unless it is blank. -/
def selection? (settings : Settings) (parameters : List Parameter) (overrides : Overrides) :
    Option String :=
  (selector? settings parameters).bind fun selector ↦
    ((overrides.find? selector.id).filter fun quantity ↦ !quantity.isBlank).map Quantity.display

/-- The first row of an option table whose key answers to a selection; a row without a key never
does. -/
def selectedOption? (options : List DropdownOption) (selection : String) :
    Option DropdownOption :=
  options.find? fun option ↦ option.key.any fun key ↦ (keyMatch key selection).isSome

/-- The number that a dropdown gets from the selection; none where it is no dropdown with options,
where nothing is selected or answers, and where the first row that answers has no number. -/
def selectedValue (settings : Settings) (parameters : List Parameter) (overrides : Overrides)
    (target : Parameter) : Option Float :=
  if target.display = .dropdown ∧ target.options ≠ [] then do
    let selection ← selection? settings parameters overrides
    let option ← selectedOption? target.options selection
    (← option.value).reading
  else none

/-- The number that a parameter has for the solver: the selected one, else the one entered by the
user, else the stored one. -/
def resolvedValue (settings : Settings) (parameters : List Parameter) (overrides : Overrides)
    (parameter : Parameter) : Option Float :=
  ((selectedValue settings parameters overrides parameter).or
    (overrides.reading? parameter.id)).or parameter.storedValue

end Formulary
