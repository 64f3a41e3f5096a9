import Formulary.Formula.Error
import Formulary.Number.Numeral

/-!
# Tokens of a formula

`Token.ofText` cuts the text of a formula into numbers, names and marks and notes where each starts.
Each token is as long as can be. The prefix `Math.` of a function is dropped, and `**` is the same
mark as `^`.
-/

set_option autoImplicit false
set_option relaxedAutoImplicit false

namespace Formulary.Formula

open Formulary.Text Formulary.Number

/-! ### Tokens -/

/-- What a token stands for. -/
inductive Lexeme where
  | number (value : Float)
  | name (text : String)
  | mark (value : Mark)
  deriving Repr, DecidableEq

/-- A token: what it stands for and the position of its first character. -/
structure Token where
  lexeme : Lexeme
  position : Nat
  deriving Repr, DecidableEq

/-! ### One token -/

/-- The prefix that function names may carry. -/
def functionPrefix : List Char := ['M', 'a', 't', 'h']

/-- The mark that a character is on its own. -/
def markOf? : Char → Option Mark
  | '+' => some .plus
  | '-' => some .minus
  | '*' => some .star
  | '/' => some .slash
  | '%' => some .percent
  | '^' => some .caret
  | '(' => some .openParenthesis
  | ')' => some .closeParenthesis
  | ',' => some .comma
  | _ => none

/-- Whether a text starts with a number: with a digit, or with a point and a digit. -/
def startsNumber : List Char → Bool
  | first :: second :: _ => isAsciiDigit first || (first == '.' && isAsciiDigit second)
  | [first] => isAsciiDigit first
  | [] => false

/-- The name at the front of a text and the number of characters that it takes. -/
def scanName (text : List Char) : Except SyntaxError (Lexeme × Nat) :=
  let word := text.takeWhile isNameCharacter
  match text.dropWhile isNameCharacter with
  | '.' :: after =>
    if word = functionPrefix then
      let function := after.takeWhile isNameCharacter
      if function.isEmpty then .error ⟨word.length, .missingFunctionName⟩
      else .ok (.name (String.ofList function), word.length + 1 + function.length)
    else .ok (.name (String.ofList word), word.length)
  | _ => .ok (.name (String.ofList word), word.length)

/-- The mark at the front of a text and the number of characters that it takes. -/
def scanMark : List Char → Except SyntaxError (Lexeme × Nat)
  | '*' :: '*' :: _ => .ok (.mark .caret, 2)
  | character :: _ =>
    match markOf? character with
    | some mark => .ok (.mark mark, 1)
    | none => .error ⟨0, .unexpectedCharacter character⟩
  | [] => .error ⟨0, .unexpectedEnd⟩

/-- The token at the front of a text that is neither empty nor starts with white space, and the
number of characters that it takes. -/
def scanLexeme (text : List Char) : Except SyntaxError (Lexeme × Nat) :=
  if startsNumber text then
    match Numeral.scan text with
    | some (numeral, _) => .ok (.number numeral.value, numeral.characters.length)
    | none => scanMark text
  else if text.head?.any isNameStart then scanName text
  else scanMark text

/-! ### All tokens -/

/-- An error at a position counted from another one. -/
def SyntaxError.shift (position : Nat) (error : SyntaxError) : SyntaxError :=
  { error with position := position + error.position }

/-- The tokens of a text whose first character has a position; as many rounds as the text has
characters suffice, since each one takes at least one off it. -/
def tokensFrom : Nat → Nat → List Char → Except SyntaxError (List Token)
  | 0, _, _ => .ok []
  | _ + 1, _, [] => .ok []
  | rounds + 1, position, character :: rest =>
    if isWhiteSpace character then tokensFrom rounds (position + 1) rest
    else
      match scanLexeme (character :: rest) with
      | .error error => .error (error.shift position)
      | .ok (lexeme, width) =>
        match tokensFrom rounds (position + width) ((character :: rest).drop width) with
        | .error error => .error error
        | .ok tokens => .ok (⟨lexeme, position⟩ :: tokens)

/-- The tokens of a text. -/
def Token.ofText (text : List Char) : Except SyntaxError (List Token) :=
  tokensFrom text.length 0 text

end Formulary.Formula
