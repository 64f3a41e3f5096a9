import Formulary.Text.Unprintable

/-!
# Quoted texts

The form in which names appear inside messages: between double quotes, with short escapes for the
usual controls, quotes and backslashes, and a hexadecimal escape for every other character that has
no visible form or is a mark on its neighbour. `quoted` writes one text and `quotedList` a bracketed
list of them.
-/

set_option autoImplicit false
set_option relaxedAutoImplicit false

namespace Formulary.Text

/-- The digits of a number in base sixteen, in small letters. -/
def hexadecimal (number : Nat) : List Char :=
  Nat.toDigits 16 number

/-- A character as it is written between double quotes. -/
def escaped (character : Char) : List Char :=
  match character with
  | '\x00' => ['\\', '0']
  | '\t' => ['\\', 't']
  | '\r' => ['\\', 'r']
  | '\n' => ['\\', 'n']
  | '"' => ['\\', '"']
  | '\\' => ['\\', '\\']
  | other =>
    if isAttachedMark other || isUnprintable other then
      ['\\', 'u', '\x7b'] ++ hexadecimal other.toNat ++ ['\x7d']
    else [other]

/-- A text between double quotes. -/
def quoted (text : String) : String :=
  String.ofList ('"' :: text.toList.flatMap escaped ++ ['"'])

/-- Quoted texts in brackets, separated by commas. -/
def quotedList (texts : List String) : String :=
  "[" ++ String.intercalate ", " (texts.map quoted) ++ "]"

end Formulary.Text
