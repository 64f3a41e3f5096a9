import Formulary.Text.CodePointRange

/-!
# White space

The Unicode property White_Space and what hangs on it: `trim`, `trimStart` and `isBlank`. The main
statement, `isBlank_iff_trim_eq_nil`, says that the blank texts are those of which trimming leaves
nothing.
-/

set_option autoImplicit false
set_option relaxedAutoImplicit false

namespace Formulary.Text

/-- The code points with the property White_Space. -/
def whiteSpaceRanges : List (Nat × Nat) :=
  [(0x9, 0xD), (0x20, 0x20), (0x85, 0x85), (0xA0, 0xA0), (0x1680, 0x1680), (0x2000, 0x200A),
   (0x2028, 0x2029), (0x202F, 0x202F), (0x205F, 0x205F), (0x3000, 0x3000)]

/-- Whether a character is white space. -/
def isWhiteSpace (character : Char) : Bool :=
  inRanges whiteSpaceRanges character.toNat

/-- A text without its leading white space. -/
def trimStart (text : List Char) : List Char :=
  text.dropWhile isWhiteSpace

/-- A text without its trailing white space. -/
def trimEnd (text : List Char) : List Char :=
  (text.reverse.dropWhile isWhiteSpace).reverse

/-- A text without the white space at its two ends. -/
def trim (text : List Char) : List Char :=
  trimEnd (trimStart text)

/-- Whether a text holds nothing but white space. -/
def isBlank (text : List Char) : Bool :=
  text.all isWhiteSpace

theorem isBlank_eq_false_iff {text : List Char} :
    isBlank text = false ↔ ∃ character ∈ text, isWhiteSpace character = false := by
  simp only [isBlank, List.all_eq_false, Bool.not_eq_true]

/-- A blank text is one of which trimming leaves nothing. -/
theorem isBlank_iff_trim_eq_nil (text : List Char) : isBlank text = true ↔ trim text = [] := by
  have hnone (characters : List Char) :
      characters.dropWhile isWhiteSpace = [] ↔ characters.all isWhiteSpace = true := by
    induction characters with
    | nil => simp
    | cons character rest ih =>
      by_cases hwhite : isWhiteSpace character = true <;> simp [hwhite, ih]
  constructor
  · intro hblank
    simp [trim, trimStart, trimEnd, (hnone text).mpr hblank]
  · intro htrim
    have hreversed : (trimStart text).reverse.dropWhile isWhiteSpace = [] := by
      simpa [trim, trimEnd] using htrim
    have hrest : (trimStart text).all isWhiteSpace = true := by
      simpa using (hnone _).mp hreversed
    cases hstart : trimStart text with
    | nil => exact (hnone text).mp hstart
    | cons character others =>
      have hfirst := List.head?_dropWhile_not isWhiteSpace text
      rw [show text.dropWhile isWhiteSpace = character :: others from hstart] at hfirst
      simp [hstart] at hrest
      simp [hrest.1] at hfirst

end Formulary.Text
