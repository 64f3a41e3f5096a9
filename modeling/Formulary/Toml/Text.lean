import Formulary.Json.Reader
import Formulary.Toml.Value

/-!
# Texts in TOML

The four ways to write a text: between single quotes as it stands, between double quotes with
escapes, and either of them over several lines between triple quotes. Each reader starts behind the
opening quotes.
-/

set_option autoImplicit false
set_option relaxedAutoImplicit false

namespace Formulary.Toml

/-- Whether a character may stand in a comment or, quotes and backslashes apart, in a text. -/
def isPrintable (character : Char) : Bool :=
  character == '\t' || (' ' ≤ character && character != '\x7f')

/-- Whether a character separates the parts of a line. -/
def isSpace (character : Char) : Bool :=
  character == ' ' || character == '\t'

/-- The character of a short escape. -/
def shortEscape? : Char → Option Char
  | 'b' => some '\x08'
  | 't' => some '\t'
  | 'n' => some '\n'
  | 'f' => some '\x0c'
  | 'r' => some '\r'
  | '"' => some '"'
  | '\\' => some '\\'
  | _ => none

/-- The character of a code point in base sixteen; surrogates and what lies beyond the last code
point are none. -/
def codePoint? (figures : List Char) : Option Char :=
  (Json.hexadecimalValue? figures).bind fun code ↦
    if code < 0xD800 ∨ (0xE000 ≤ code ∧ code < 0x110000) then some (Char.ofNat code) else none

/-- A line end and what follows it. -/
def takeLineEnd : List Char → Option (List Char)
  | '\n' :: rest => some rest
  | '\r' :: '\n' :: rest => some rest
  | _ => none

/-- A text without a line end at its front. -/
def dropLineEnd (text : List Char) : List Char :=
  (takeLineEnd text).getD text

/-- Whether a backslash before this text joins lines: only space follows up to the line end. -/
def joinsLines (text : List Char) : Bool :=
  (takeLineEnd (text.dropWhile isSpace)).isSome

/-! ### One line -/

/-- Reads a text in single quotes. -/
def readLiteral : List Char → Option (List Char × List Char)
  | [] => none
  | '\'' :: rest => some ([], rest)
  | character :: rest =>
    if isPrintable character then
      (readLiteral rest).map fun (text, after) ↦ (character :: text, after)
    else none

/-- Reads a text in double quotes. -/
def readBasic : List Char → Option (List Char × List Char)
  | [] => none
  | '"' :: rest => some ([], rest)
  | '\\' :: 'u' :: a :: b :: c :: d :: rest => do
    let character ← codePoint? [a, b, c, d]
    let (text, after) ← readBasic rest
    return (character :: text, after)
  | '\\' :: 'U' :: a :: b :: c :: d :: e :: f :: g :: h :: rest => do
    let character ← codePoint? [a, b, c, d, e, f, g, h]
    let (text, after) ← readBasic rest
    return (character :: text, after)
  | '\\' :: kind :: rest => do
    let character ← shortEscape? kind
    let (text, after) ← readBasic rest
    return (character :: text, after)
  | character :: rest =>
    if isPrintable character && character != '\\' then
      (readBasic rest).map fun (text, after) ↦ (character :: text, after)
    else none

/-! ### Several lines -/

/-- Reads a text in triple single quotes; one or two quotes may stand right before the last
three. -/
def readLongLiteral : List Char → Option (List Char × List Char)
  | [] => none
  | '\'' :: '\'' :: '\'' :: '\'' :: '\'' :: rest => some (['\'', '\''], rest)
  | '\'' :: '\'' :: '\'' :: '\'' :: rest => some (['\''], rest)
  | '\'' :: '\'' :: '\'' :: rest => some ([], rest)
  | '\r' :: '\n' :: rest =>
    (readLongLiteral rest).map fun (text, after) ↦ ('\n' :: text, after)
  | character :: rest =>
    if isPrintable character || character == '\n' then
      (readLongLiteral rest).map fun (text, after) ↦ (character :: text, after)
    else none

/-- Reads a text in triple double quotes; one or two quotes may stand right before the last three.
While `joining` holds, space and line ends are passed over. -/
def readLongBasic : Bool → List Char → Option (List Char × List Char)
  | _, [] => none
  | _, '"' :: '"' :: '"' :: '"' :: '"' :: rest => some (['"', '"'], rest)
  | _, '"' :: '"' :: '"' :: '"' :: rest => some (['"'], rest)
  | _, '"' :: '"' :: '"' :: rest => some ([], rest)
  | _, '\\' :: 'u' :: a :: b :: c :: d :: rest => do
    let character ← codePoint? [a, b, c, d]
    let (text, after) ← readLongBasic false rest
    return (character :: text, after)
  | _, '\\' :: 'U' :: a :: b :: c :: d :: e :: f :: g :: h :: rest => do
    let character ← codePoint? [a, b, c, d, e, f, g, h]
    let (text, after) ← readLongBasic false rest
    return (character :: text, after)
  | _, '\\' :: kind :: rest =>
    if joinsLines (kind :: rest) then readLongBasic true (kind :: rest)
    else do
      let character ← shortEscape? kind
      let (text, after) ← readLongBasic false rest
      return (character :: text, after)
  | joining, '\r' :: '\n' :: rest =>
    if joining then readLongBasic true rest
    else (readLongBasic false rest).map fun (text, after) ↦ ('\n' :: text, after)
  | joining, character :: rest =>
    if joining && (isSpace character || character == '\n') then readLongBasic true rest
    else if (isPrintable character || character == '\n') && character != '\\' then
      (readLongBasic false rest).map fun (text, after) ↦ (character :: text, after)
    else none

/-! ### All of them -/

/-- Reads a text in one line of either kind. -/
def readLineText : List Char → Option (String × List Char)
  | '"' :: rest => (readBasic rest).map fun (text, after) ↦ (String.ofList text, after)
  | '\'' :: rest => (readLiteral rest).map fun (text, after) ↦ (String.ofList text, after)
  | _ => none

/-- Reads a text of any kind. -/
def readText : List Char → Option (String × List Char)
  | '"' :: '"' :: '"' :: rest =>
    (readLongBasic false (dropLineEnd rest)).map fun (text, after) ↦ (String.ofList text, after)
  | '\'' :: '\'' :: '\'' :: rest =>
    (readLongLiteral (dropLineEnd rest)).map fun (text, after) ↦ (String.ofList text, after)
  | text => readLineText text

end Formulary.Toml
