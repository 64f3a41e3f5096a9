import Formulary.Proofs.Formula.Names

/-!
# White space in a formula

In a text that can be parsed, white space alone never separates two characters of names: each word
ends there, and two words side by side are not both numbers or names. The main statement is
`hasNoGaps_of_parse`.
-/

set_option autoImplicit false
set_option relaxedAutoImplicit false

namespace Formulary.Formula

open Formulary.Text Formulary.Number

variable {word rest text : List Char} {lexeme : Lexeme} {lexemes : List Lexeme}

/-- No two characters of names have nothing but white space between them. -/
def HasNoGaps (text : List Char) : Prop :=
  ∀ front gap back, text = front ++ (gap ++ back) → gap ≠ [] → gap.all isWhiteSpace = true →
    front.getLast?.any isNameCharacter = true → back.head?.any isNameCharacter = false

/-- The end of a text without gaps has none. -/
theorem HasNoGaps.of_append (hgaps : HasNoGaps (word ++ rest)) : HasNoGaps rest := by
  intro front gap back hrest hgap hwhite hlast
  refine hgaps (word ++ front) gap back (by rw [hrest, List.append_assoc]) hgap hwhite ?_
  cases front with
  | nil => cases hlast
  | cons first others =>
    rwa [List.getLast?_append_cons]

/-! ### Words have no white space -/

theorem not_white_of_digits {figures : List Char} (hfigures : figures.all isAsciiDigit = true) :
    ∀ character ∈ figures, isWhiteSpace character = false := fun character hcharacter ↦
  isWhiteSpace_of_isAsciiDigit (List.all_eq_true.mp hfigures character hcharacter)

theorem not_white_of_numeral {numeral : Numeral} (hnumeral : numeral.WellFormed) :
    ∀ character ∈ numeral.characters, isWhiteSpace character = false := by
  obtain ⟨whole, fraction, exponent⟩ := numeral
  obtain ⟨hwhole, hfraction, _, hexponent⟩ := hnumeral
  simp only [Numeral.characters, List.mem_append]
  rintro character ((hmember | hmember) | hmember)
  · exact not_white_of_digits hwhole character hmember
  · cases fraction with
    | none => cases hmember
    | some figures =>
      rcases List.mem_cons.mp hmember with rfl | hfigure
      · decide
      · exact not_white_of_digits hfraction character hfigure
  · cases exponent with
    | none => cases hmember
    | some exponent =>
      obtain ⟨hletter, hsign, hfigures, _⟩ := hexponent exponent rfl
      simp only [exponentCharacters, Exponent.characters, List.cons_append, List.mem_cons,
        List.mem_append, Option.mem_toList] at hmember
      rcases hmember with rfl | hmember | hmember
      · rcases hletter with hletter | hletter <;> rw [hletter] <;> decide
      · rcases hsign character hmember with rfl | rfl <;> decide
      · exact not_white_of_digits hfigures character hmember

theorem not_white_of_letters {letters : List Char} (hletters : letters.all isNameCharacter = true) :
    ∀ character ∈ letters, isWhiteSpace character = false := fun character hcharacter ↦
  isWhiteSpace_of_isNameCharacter (List.all_eq_true.mp hletters character hcharacter)

/-- A word that is read has no white space in it. -/
theorem Reads.not_white (hreads : Reads word lexeme rest) :
    ∀ character ∈ word, isWhiteSpace character = false := by
  cases hreads with
  | number hscan => exact not_white_of_numeral (wellFormed_of_scan hscan)
  | name hstart hothers _ _ =>
    refine not_white_of_letters ?_
    rw [List.all_cons, isNameCharacter_of_isNameStart hstart, hothers, Bool.and_self]
  | function _ hletters _ =>
    intro character hcharacter
    simp only [functionPrefix, List.cons_append, List.nil_append, List.mem_cons] at hcharacter
    rcases hcharacter with rfl | rfl | rfl | rfl | rfl | hcharacter
    iterate 5 decide
    exact not_white_of_letters hletters character hcharacter
  | power =>
    intro character hcharacter
    simp only [List.mem_cons, List.not_mem_nil, or_false, or_self] at hcharacter
    rw [hcharacter]
    decide
  | mark hmark _ =>
    intro character hcharacter
    rw [List.mem_singleton.mp hcharacter]
    exact (classes_of_markOf? hmark).2.2.1

/-! ### What stands between words -/

/-- Behind its white space, a text that spells no number and no name first does not start with a
character of names. -/
theorem Spells.trimStart_of_no_operand (hspells : Spells rest lexemes)
    (hoperand : ∀ next ∈ lexemes.head?, next.isOperand = false) :
    (trimStart rest).head?.any isNameCharacter = false := by
  induction hspells with
  | nil => rfl
  | space hwhite _ ih =>
    rw [trimStart, List.dropWhile_cons, if_pos hwhite]
    exact ih hoperand
  | @word word rest lexeme lexemes hreads hrest ih =>
    obtain ⟨first, others, rfl⟩ : ∃ first others, word = first :: others := by
      obtain ⟨first, others, hword, _⟩ := hreads.exists_cons
      exact ⟨first, others, hword⟩
    have hwhite := hreads.not_white first List.mem_cons_self
    rw [List.cons_append, trimStart, List.dropWhile_cons, if_neg (Bool.eq_false_iff.mp hwhite)]
    exact (head?_of_no_operand (.word hreads hrest) hoperand).1

theorem trimStart_append_of_white {gap back : List Char} (hgap : gap.all isWhiteSpace = true)
    (hback : back.head?.any isNameCharacter = true) : trimStart (gap ++ back) = back := by
  refine (takeWhile_run hgap ?_).2
  cases back with
  | nil => rfl
  | cons first back => exact isWhiteSpace_of_isNameCharacter hback

/-- Behind a word that ends with a character of names, white space is not followed by another
one. -/
theorem Reads.not_name_behind_gap (hreads : Reads word lexeme rest) (hspells : Spells rest lexemes)
    (hchain : (lexeme :: lexemes).IsChain Adjoins)
    (hlast : word.getLast?.any isNameCharacter = true) {gap back : List Char}
    (hrest : rest = gap ++ back) (hgap : gap.all isWhiteSpace = true) :
    back.head?.any isNameCharacter = false := by
  have hoperand : lexeme.isOperand = true := by
    cases hreads with
    | number _ | name _ _ _ _ | function _ _ _ => rfl
    | power => exact absurd hlast (by decide)
    | mark hmark _ =>
      exact absurd ((classes_of_markOf? hmark).2.1.symm.trans hlast) Bool.false_ne_true
  refine Bool.eq_false_iff.mpr fun hback ↦ ?_
  have hbehind := hspells.trimStart_of_no_operand (no_operand_of_isChain hchain hoperand)
  rw [hrest, trimStart_append_of_white hgap hback, hback] at hbehind
  cases hbehind

/-- A text of words of which no two side by side are numbers or names has no gaps. -/
theorem Spells.hasNoGaps (hspells : Spells text lexemes) (hchain : lexemes.IsChain Adjoins) :
    HasNoGaps text := by
  induction hspells with
  | nil =>
    intro front gap back hsplit hgap
    have hempty := List.append_eq_nil_iff.mp hsplit.symm
    exact absurd (List.append_eq_nil_iff.mp hempty.2).1 hgap
  | @space character rest lexemes hwhite _ ih =>
    intro front gap back hsplit hgap hblank hlast
    cases front with
    | nil => cases hlast
    | cons first front =>
      obtain ⟨rfl, hrest⟩ := List.cons.inj hsplit
      cases front with
      | nil =>
        have hname : isNameCharacter character = true := hlast
        exact absurd ((isNameCharacter_of_isWhiteSpace hwhite).symm.trans hname) Bool.false_ne_true
      | cons second front =>
        rw [List.getLast?_cons_cons] at hlast
        exact ih hchain (second :: front) gap back hrest hgap hblank hlast
  | @word word rest lexeme lexemes hreads hrest ih =>
    intro front gap back hsplit hgap hblank hlast
    rcases List.append_eq_append_iff.mp hsplit with ⟨excess, rfl, hexcess⟩ | ⟨excess, rfl, hexcess⟩
    · cases excess with
      | nil =>
        rw [List.append_nil] at hlast
        exact hreads.not_name_behind_gap hrest hchain hlast hexcess hblank
      | cons first excess =>
        rw [List.getLast?_append_cons] at hlast
        exact ih hchain.of_cons (first :: excess) gap back hexcess hgap hblank hlast
    · cases excess with
      | nil =>
        rw [List.append_nil] at hreads
        exact hreads.not_name_behind_gap hrest hchain hlast hexcess.symm hblank
      | cons first excess =>
        -- the gap would start inside the word
        obtain ⟨other, others, rfl⟩ := List.exists_cons_of_ne_nil hgap
        obtain ⟨rfl, _⟩ := List.cons.inj hexcess
        rw [List.all_cons, Bool.and_eq_true] at hblank
        have hwhite := hreads.not_white other (List.mem_append_right front List.mem_cons_self)
        exact absurd (hwhite.symm.trans hblank.1) Bool.false_ne_true

/-- A text that can be parsed has no gaps. -/
theorem hasNoGaps_of_parse {tree : Expression} (hparse : parse text = .ok tree) :
    HasNoGaps text := by
  obtain ⟨tokens, htokens, _, hderives⟩ := (denotes_iff_parse_eq_ok text tree).mpr hparse
  exact (spells_iff_ofText.mpr ⟨tokens, htokens, rfl⟩).hasNoGaps hderives.isChain

end Formulary.Formula
