import Formulary.Text.LowerCase
import Formulary.Text.Search
import Formulary.Text.WhiteSpace
import Formulary.Text.WordCharacter

/-!
# Matching names tier by tier

The names in formula text drift from the recorded ones in letter case, punctuation and spacing. A
`Tier` is a way to compare two names, from strict to loose. `resolve` finds the records at the first
of the four exact tiers that matches any; `referenced` collects the records that match at any tier
at all, so that a use of a record is rather reported too often than missed.
-/

set_option autoImplicit false
set_option relaxedAutoImplicit false

namespace Formulary.Name

open Formulary.Text

/-! ### Records with names -/

/-- Records with an identity and a display name. -/
class Named (Entry : Type) where
  identity : Entry → String
  name : Entry → String

/-! ### Tiers -/

/-- The ways to compare two names: all of them ignore case, `exact` and nothing else, `cleaned` also
everything but ASCII letters, digits, underscores and white space, `normalized` the difference
between runs of white space or underscores, `trimmed` white space at the ends; `part` asks only that
one name contains the other in one of these forms. -/
inductive Tier where
  | exact
  | cleaned
  | normalized
  | trimmed
  | part
  deriving Repr, DecidableEq

/-- The tiers that compare whole names, strictest first. -/
def Tier.wholes : List Tier := [.exact, .cleaned, .normalized, .trimmed]

/-- All tiers, strictest first. -/
def Tier.all : List Tier := [.exact, .cleaned, .normalized, .trimmed, .part]

/-- The forms of a name that the tiers compare. -/
structure Forms where
  lowered : List Char
  cleaned : List Char
  normalized : List Char
  trimmed : List Char
  deriving Repr, DecidableEq

/-- Whether a character survives cleaning. -/
def isClean (character : Char) : Bool :=
  isPlainCharacter character || isWhiteSpace character

/-- Whether a character belongs to a run that normalization collapses. -/
def isGap (character : Char) : Bool :=
  isWhiteSpace character || character == '_'

/-- The forms of a name. -/
def Forms.of (name : String) : Forms :=
  let lowered := lower name.toList
  { lowered
    cleaned := lowered.filter isClean
    normalized := collapseRuns isGap '_' lowered
    trimmed := trim lowered }

/-- The forms of a name, strictest first. -/
def Forms.levels (forms : Forms) : List (List Char) :=
  [forms.lowered, forms.cleaned, forms.normalized, forms.trimmed]

/-- Whether one of two texts contains the other; an empty text takes no part. -/
def containsEither (first second : List Char) : Bool :=
  !first.isEmpty && !second.isEmpty && (occursIn second first || occursIn first second)

/-- Whether two names in their forms match at a tier. -/
def Forms.agree (tier : Tier) (first second : Forms) : Bool :=
  match tier with
  | .exact => first.lowered == second.lowered
  | .cleaned => !first.cleaned.isEmpty && first.cleaned == second.cleaned
  | .normalized => first.normalized == second.normalized
  | .trimmed => first.trimmed == second.trimmed
  | .part => (first.levels.zip second.levels).any fun (one, other) ↦ containsEither one other

/-- Whether a name in formula text matches a recorded name at a tier. -/
def Tier.matches (tier : Tier) (token name : String) : Bool :=
  (Forms.of token).agree tier (Forms.of name)

/-! ### Finding records -/

section

variable {Entry : Type} [Named Entry]

/-- The records that match at a tier, in their order. -/
def resolveAt (token : String) (records : List Entry) (tier : Tier) : List Entry :=
  records.filter fun record ↦ tier.matches token (Named.name record)

/-- The first of some tiers at which any record matches, and the records that match there. -/
def resolveAmong (token : String) (records : List Entry) : List Tier → Option (Tier × List Entry)
  | [] => none
  | tier :: looser =>
    let found := resolveAt token records tier
    if found.isEmpty then resolveAmong token records looser else some (tier, found)

/-- The strictest tier of whole names at which any record matches, and the records that match. -/
def resolve (token : String) (records : List Entry) : Option (Tier × List Entry) :=
  resolveAmong token records Tier.wholes

/-- The first record that matches at the strictest tier. -/
def resolveBest (token : String) (records : List Entry) : Option Entry :=
  (resolve token records).bind fun (_, found) ↦ found.head?

/-- Records without the later ones of an identity that already occurred; `seen` occurred before. -/
def distinctFrom (seen : List String) : List Entry → List Entry
  | [] => []
  | record :: rest =>
    if seen.contains (Named.identity record) then distinctFrom seen rest
    else record :: distinctFrom (Named.identity record :: seen) rest

/-- The records that match at any tier, the first one of each identity. -/
def referenced (token : String) (records : List Entry) : List Entry :=
  distinctFrom [] (records.filter fun record ↦
    Tier.all.any fun tier ↦ tier.matches token (Named.name record))

end

end Formulary.Name
