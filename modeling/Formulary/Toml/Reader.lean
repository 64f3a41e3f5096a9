import Formulary.Toml.Scalar
import Formulary.Toml.Text

/-!
# Reading TOML text

`parse` takes a document to its entries. A document is a sequence of lines, each of which is empty,
a comment, a header or a key with its value; lists may run over several lines.
-/

set_option autoImplicit false
set_option relaxedAutoImplicit false

namespace Formulary.Toml

open Formulary.Text

/-- The number of levels that values may nest, and of parts that a key may have. -/
def deepest : Nat := 79

/-! ### Space and comments -/

/-- A text without the space at its front. -/
def skipSpace (text : List Char) : List Char :=
  text.dropWhile isSpace

/-- Skips space, line ends and comments; none where a comment holds what it may not. -/
def skipLines : Bool → List Char → Option (List Char)
  | false, [] => some []
  | true, [] => none
  | _, '\n' :: rest => skipLines false rest
  | _, '\r' :: '\n' :: rest => skipLines false rest
  | false, character :: rest =>
    if isSpace character then skipLines false rest
    else if character = '#' then skipLines true rest
    else some (character :: rest)
  | true, character :: rest => if isPrintable character then skipLines true rest else none

/-- The text behind the end of a line, before which space and a comment may stand; none where
anything else stands there. -/
def finishLine (text : List Char) : Option (List Char) :=
  let rest := match skipSpace text with
    | '#' :: comment => comment.dropWhile isPrintable
    | other => other
  if rest.isEmpty then some [] else takeLineEnd rest

/-! ### Keys -/

/-- Whether a character may stand in a key without quotes. -/
def isKeyCharacter (character : Char) : Bool :=
  isAsciiLetter character || isAsciiDigit character || character == '-' || character == '_'

/-- Reads one part of a key. -/
def readKeyPart (text : List Char) : Option (String × List Char) :=
  let bare := text.takeWhile isKeyCharacter
  if bare.isEmpty then readLineText text
  else some (String.ofList bare, text.dropWhile isKeyCharacter)

/-- Reads a dotted key of at most so many parts: its last part and those before it. -/
def readKeyFrom : Nat → List String → List Char → Option (List String × String × List Char)
  | 0, _, _ => none
  | parts + 1, path, text => do
    let (part, rest) ← readKeyPart (skipSpace text)
    match skipSpace rest with
    | '.' :: after => readKeyFrom parts (path ++ [part]) after
    | after => return (path, part, after)

/-- Reads a dotted key, and the space behind it. -/
def readKey (text : List Char) : Option (List String × String × List Char) :=
  readKeyFrom deepest [] text

/-! ### Values -/

/-- Whether a character may stand in a value without quotes. -/
def isBareCharacter (character : Char) : Bool :=
  isKeyCharacter character || character == '+' || character == '.' || character == ':'

/-- Reads a value without quotes; a date and a time may have a space between them. -/
def readBare (text : List Char) : Option (Value × List Char) :=
  let word := text.takeWhile isBareCharacter
  let rest := text.dropWhile isBareCharacter
  let time := (rest.drop 1).takeWhile isBareCharacter
  if isDate word && rest.head? == some ' ' && time.head?.any isAsciiDigit then
    (bareValue (word ++ ' ' :: time)).map fun value ↦
      (value, (rest.drop 1).dropWhile isBareCharacter)
  else (bareValue word).map fun value ↦ (value, rest)

/-- Reads the items of a list behind its bracket or a comma. -/
def readItems (readItem : List Char → Option (Value × List Char)) :
    Nat → List Char → Option (List Value × List Char)
  | 0, _ => none
  | rounds + 1, text => do
    match ← skipLines false text with
    | ']' :: after => return ([], after)
    | start =>
      let (item, rest) ← readItem start
      match ← skipLines false rest with
      | ',' :: after =>
        let (items, beyond) ← readItems readItem rounds after
        return (item :: items, beyond)
      | ']' :: after => return ([item], after)
      | _ => none

/-- Reads a key, the equals sign and a value. -/
def readPair (readItem : List Char → Option (Value × List Char)) (text : List Char) :
    Option (List String × String × Value × List Char) := do
  let (path, key, afterKey) ← readKey text
  match afterKey with
  | '=' :: after =>
    let (value, rest) ← readItem (skipSpace after)
    return (path, key, value, rest)
  | _ => none

/-- Reads the pairs of a table in braces behind its brace or a comma. -/
def readPairs (readItem : List Char → Option (Value × List Char)) :
    Nat → Entries → List Char → Option (Entries × List Char)
  | 0, _, _ => none
  | rounds + 1, entries, text => do
    let (path, key, value, rest) ← readPair readItem text
    let added ← assignIn path key value .header entries
    match skipSpace rest with
    | ',' :: after => readPairs readItem rounds added after
    | '\x7d' :: after => return (added, after)
    | _ => none

/-- Reads a value that may nest so many levels further. -/
def readValue : Nat → List Char → Option (Value × List Char)
  | 0, '[' :: _ => none
  | 0, '\x7b' :: _ => none
  | levels + 1, '[' :: rest =>
    (readItems (readValue levels) (rest.length + 1) rest).map
      fun (items, after) ↦ (.list items, after)
  | levels + 1, '\x7b' :: rest =>
    match skipSpace rest with
    | '\x7d' :: after => some (.table [], after)
    | _ =>
      (readPairs (readValue levels) (rest.length + 1) [] rest).map
        fun (entries, after) ↦ (.table (finishedEntries entries), after)
  | _, '"' :: rest => (readText ('"' :: rest)).map fun (text, after) ↦ (.text text, after)
  | _, '\'' :: rest => (readText ('\'' :: rest)).map fun (text, after) ↦ (.text text, after)
  | _, text => readBare text

/-! ### Documents -/

/-- How far a document has been read: its entries and the header in force. -/
structure Progress where
  document : Entries
  header : List String

/-- Reads a header behind its brackets, and the line that it stands on. -/
def readHeader (closing : List Char) (text : List Char) :
    Option (List String × String × List Char) := do
  let (path, key, rest) ← readKey text
  if closing.isPrefixOf rest then
    return (path, key, ← finishLine (rest.drop closing.length))
  else none

/-- Reads a line that is not empty. -/
def readLine (progress : Progress) : List Char → Option (Progress × List Char)
  | '[' :: '[' :: rest => do
    let (path, key, after) ← readHeader [']', ']'] rest
    return (⟨← openElement path key progress.document, path ++ [key]⟩, after)
  | '[' :: rest => do
    let (path, key, after) ← readHeader [']'] rest
    return (⟨← openTable path key progress.document, path ++ [key]⟩, after)
  | text => do
    let (path, key, value, rest) ← readPair (readValue deepest) text
    let document ← assign progress.header path key value progress.document
    return ({ progress with document }, ← finishLine rest)

/-- Reads lines to the end of the text; each round takes a line, so as many as there are characters
suffice. -/
def readLines : Nat → Progress → List Char → Option Entries
  | 0, progress, _ => some progress.document
  | rounds + 1, progress, text =>
    match skipSpace text with
    | [] => some progress.document
    | character :: rest =>
      if character = '#' ∨ (takeLineEnd (character :: rest)).isSome then
        (finishLine (character :: rest)).bind (readLines rounds progress)
      else
        (readLine progress (character :: rest)).bind fun (next, after) ↦
          readLines rounds next after

/-- The entries of a TOML text, before which a byte order mark may stand. -/
def parse (text : String) : Option (List (String × Value)) :=
  let characters := match text.toList with
    | '\ufeff' :: rest => rest
    | other => other
  (readLines (characters.length + 1) ⟨[], []⟩ characters).map finishedEntries

end Formulary.Toml
