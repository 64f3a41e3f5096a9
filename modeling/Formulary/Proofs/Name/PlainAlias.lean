import Formulary.Name.Identifier
import Formulary.Proofs.Substitution.WholeWords

/-!
# The aliases of plain names

A plain name is made of ASCII words with single spaces between them, starts with a letter and ends
with a letter or a digit. All its aliases start with a letter and end with a plain character, and
those other than the name are plain throughout, `PlainAlias`.
-/

set_option autoImplicit false
set_option relaxedAutoImplicit false

namespace Formulary.Name

open Formulary.Text

/-- Whether a name is plain: ASCII words with single spaces between them, the first one with a
letter in front and the last one with a letter or a digit at the end. -/
def isPlainName (name : List Char) : Bool :=
  name.all (fun character ↦ isPlainCharacter character || character == ' ') &&
    !occursIn [' ', ' '] name && name.head?.any isAsciiLetter &&
    name.getLast?.any fun character ↦ isAsciiLetter character || isAsciiDigit character

/-- What an alias of a plain name is like. -/
structure PlainAlias (name word : List Char) : Prop where
  first : word.head?.any isAsciiLetter = true
  edges : hasPlainEdges word = true
  plain : word = name ∨ word.all isPlainCharacter = true

/-! ### Characters of aliases -/

theorem isPlainCharacter_of_isAsciiLetter {character : Char}
    (hletter : isAsciiLetter character = true) : isPlainCharacter character = true := by
  rw [isPlainCharacter, isPlainStart, hletter, Bool.true_or, Bool.true_or]

theorem isSeparator_of_isAsciiLetter {character : Char} (hletter : isAsciiLetter character = true) :
    isWhiteSpace character = false ∧ isSeparator character = false ∧ character ≠ '_' :=
  of_ascii
    (fun character ↦ isAsciiLetter character = true →
      isWhiteSpace character = false ∧ isSeparator character = false ∧ character ≠ '_')
    (by decide +kernel)
    (isAscii_of_isPlainCharacter (isPlainCharacter_of_isAsciiLetter hletter)) hletter

theorem mem_collapseFrom {inClass : Char → Bool} {mark : Char} {inside : Bool}
    {text : List Char} {character : Char}
    (hcharacter : character ∈ collapseFrom inClass mark inside text) :
    character = mark ∨ character ∈ text ∧ inClass character = false := by
  induction text generalizing inside with
  | nil => simp [collapseFrom] at hcharacter
  | cons first rest ih =>
    have hlater {inside : Bool} (hrest : character ∈ collapseFrom inClass mark inside rest) :
        character = mark ∨ character ∈ first :: rest ∧ inClass character = false :=
      (ih hrest).imp_right fun h ↦ ⟨List.mem_cons_of_mem _ h.1, h.2⟩
    rw [collapseFrom] at hcharacter
    split at hcharacter
    · split at hcharacter
      · exact hlater hcharacter
      · rcases List.mem_cons.mp hcharacter with rfl | hrest
        · exact Or.inl rfl
        · exact hlater hrest
    · rename_i hother
      rcases List.mem_cons.mp hcharacter with rfl | hrest
      · exact Or.inr ⟨List.mem_cons_self, by simpa using hother⟩
      · exact hlater hrest

theorem head?_collapseRuns {inClass : Char → Bool} {mark : Char} {text : List Char}
    (hfirst : text.head?.any inClass = false) :
    (collapseRuns inClass mark text).head? = text.head? := by
  cases text with
  | nil => rfl
  | cons first rest =>
    have hother : ¬inClass first = true := by simpa using hfirst
    rw [collapseRuns, collapseFrom, if_neg hother]
    rfl

theorem mem_strip {mark character : Char} {text : List Char}
    (hcharacter : character ∈ strip mark text) : character ∈ text := by
  rw [strip, List.mem_reverse] at hcharacter
  have hsuffix := (List.dropWhile_suffix (· == mark)).subset hcharacter
  rw [List.mem_reverse] at hsuffix
  exact (List.dropWhile_suffix (· == mark)).subset hsuffix

/-- Taking a mark off both ends keeps a first character that is not the mark. -/
theorem head?_strip {mark : Char} {text : List Char} (hfirst : text.head? ≠ some mark) :
    (strip mark text).head? = text.head? := by
  cases text with
  | nil => rfl
  | cons first rest =>
    have hother : (first == mark) = false := by simpa using hfirst
    have hkept : (first :: rest).dropWhile (· == mark) = first :: rest := by
      rw [List.dropWhile_cons, hother]
      rfl
    rw [strip, hkept, List.reverse_cons, List.dropWhile_append]
    split
    · simp [hother]
    · simp

/-! ### Plain names -/

variable {name : List Char}

theorem hasPlainEdges_of_plain {word : List Char} (hnonempty : word ≠ [])
    (hplain : word.all isPlainCharacter = true) : hasPlainEdges word = true := by
  rw [List.all_eq_true] at hplain
  have hlast := hplain _ (List.getLast_mem hnonempty)
  obtain ⟨first, others, rfl⟩ := List.exists_cons_of_ne_nil hnonempty
  rw [hasPlainEdges, List.getLast?_eq_some_getLast hnonempty]
  simpa [hplain first List.mem_cons_self] using hlast

/-- The four things that make a name plain. -/
theorem isPlainName_iff (name : List Char) : isPlainName name = true ↔
    (∀ character ∈ name, isPlainCharacter character = true ∨ character = ' ') ∧
      occursIn [' ', ' '] name = false ∧ name.head?.any isAsciiLetter = true ∧
      name.getLast?.any (fun character ↦ isAsciiLetter character || isAsciiDigit character) =
        true := by
  simp only [isPlainName, Bool.and_eq_true, List.all_eq_true, Bool.or_eq_true, beq_iff_eq,
    Bool.not_eq_true', and_assoc]

theorem plainAlias_self (hname : isPlainName name = true) : PlainAlias name name := by
  obtain ⟨_, _, hfirst, hlast⟩ := (isPlainName_iff name).mp hname
  refine ⟨hfirst, ?_, Or.inl rfl⟩
  rw [hasPlainEdges, Bool.and_eq_true]
  constructor
  · cases hhead : name.head? with
    | none => simp [hhead] at hfirst
    | some character =>
      rw [hhead] at hfirst
      exact isPlainCharacter_of_isAsciiLetter hfirst
  · cases hend : name.getLast? with
    | none => simp [hend] at hlast
    | some character =>
      rw [hend] at hlast
      show isPlainCharacter character = true
      rcases (Bool.or_eq_true _ _).mp hlast with hletter | hdigit
      · exact isPlainCharacter_of_isAsciiLetter hletter
      · rw [isPlainCharacter, hdigit, Bool.or_true]

theorem plainAlias_of_plain {word : List Char} (hfirst : word.head?.any isAsciiLetter = true)
    (hplain : ∀ character ∈ word, isPlainCharacter character = true) : PlainAlias name word := by
  have hall : word.all isPlainCharacter = true := List.all_eq_true.mpr hplain
  refine ⟨hfirst, hasPlainEdges_of_plain ?_ hall, Or.inr hall⟩
  rintro rfl
  simp at hfirst

/-- What a plain name becomes when its spaces are collapsed is plain and starts with its letter. -/
theorem plain_collapseRuns (hname : isPlainName name = true) {inClass : Char → Bool}
    (hspace : inClass ' ' = true)
    (hletter : ∀ character, isAsciiLetter character = true → inClass character = false) :
    (collapseRuns inClass '_' name).head?.any isAsciiLetter = true ∧
      ∀ character ∈ collapseRuns inClass '_' name, isPlainCharacter character = true := by
  obtain ⟨hcharacters, _, hfirst, _⟩ := (isPlainName_iff _).mp hname
  constructor
  · rw [head?_collapseRuns, hfirst]
    cases hhead : name.head? with
    | none => rfl
    | some character =>
      rw [hhead] at hfirst
      exact hletter character hfirst
  · intro character hcharacter
    rcases mem_collapseFrom hcharacter with rfl | ⟨hmember, hother⟩
    · decide
    · rcases hcharacters character hmember with hplain | rfl
      · exact hplain
      · exact absurd (hother.symm.trans hspace) Bool.false_ne_true

/-- Each alias of a plain name starts with a letter, ends with a plain character and, unless it is
the name, is plain throughout. -/
theorem plainAlias_of_mem_aliases {name word : String} (hname : isPlainName name.toList = true)
    (hword : word ∈ aliases name) : PlainAlias name.toList word.toList := by
  simp only [aliases, List.mem_cons, List.not_mem_nil, or_false] at hword
  rcases hword with rfl | rfl | rfl
  · exact plainAlias_self hname
  · obtain ⟨hfirst, hplain⟩ := plain_collapseRuns hname (show isSeparator ' ' = true by decide)
      fun _ hletter ↦ (isSeparator_of_isAsciiLetter hletter).2.1
    rw [identifier, String.toList_ofList, identifierCharacters]
    refine plainAlias_of_plain ?_ fun character hcharacter ↦ hplain _ (mem_strip hcharacter)
    rw [head?_strip, hfirst]
    intro hmark
    rw [hmark] at hfirst
    exact absurd hfirst (by decide)
  · obtain ⟨hfirst, hplain⟩ := plain_collapseRuns hname (show isWhiteSpace ' ' = true by decide)
      fun _ hletter ↦ (isSeparator_of_isAsciiLetter hletter).1
    rw [underscored, String.toList_ofList]
    exact plainAlias_of_plain hfirst hplain

/-- An alias of a plain name starts like a name. -/
theorem PlainAlias.starts_name {name word : List Char} (halias : PlainAlias name word) :
    word.head?.any isNameStart = true := by
  refine any_imp (fun character _ hletter ↦ ?_) halias.first
  rw [isNameStart_of_ascii
    (isAscii_of_isPlainCharacter (isPlainCharacter_of_isAsciiLetter hletter)), isPlainStart,
    hletter, Bool.true_or]

end Formulary.Name
