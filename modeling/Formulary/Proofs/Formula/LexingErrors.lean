import Formulary.Proofs.Formula.Lexing

/-!
# Where the lexer fails

The lexer fails at the prefix of functions without a function and at a character that starts neither
a number nor a name nor a mark, `scanLexeme_eq_error_iff`. A text is `Readable` if the lexer reads
it to its end. It is so behind a word just where what follows the word is, `readable_append_iff`.
-/

set_option autoImplicit false
set_option relaxedAutoImplicit false

namespace Formulary.Formula

open Formulary.Text Formulary.Number

variable {first : Char} {rest word : List Char} {lexeme : Lexeme}

/-! ### One step of the lexer -/

/-- The lexer fails at a name only if it is the prefix of functions without a function. -/
theorem scanName_eq_error_iff {text : List Char} {error : SyntaxError} :
    scanName text = .error error ↔ error = ⟨functionPrefix.length, .missingFunctionName⟩ ∧
      ∃ rest, text = functionPrefix ++ '.' :: rest ∧ rest.head?.any isNameCharacter = false := by
  constructor
  · intro hscan
    simp only [scanName] at hscan
    split at hscan
    · rename_i after hdrop
      split at hscan
      · rename_i hprefix
        split at hscan
        · rename_i hempty
          refine ⟨?_, after, ?_, by simpa [isEmpty_takeWhile] using hempty⟩
          · rw [← Except.error.inj hscan, hprefix]
          · rw [← hprefix, ← hdrop, List.takeWhile_append_dropWhile]
        · cases hscan
      · cases hscan
    · cases hscan
  · rintro ⟨rfl, rest, rfl, hrest⟩
    have hletters : functionPrefix.all isNameCharacter = true := by decide +kernel
    have hpoint : ('.' :: rest).head?.any isNameCharacter = false := by
      show isNameCharacter '.' = false
      decide +kernel
    obtain ⟨htake, hdrop⟩ := takeWhile_run hletters hpoint
    simp [scanName, htake, hdrop, isEmpty_takeWhile, hrest]

theorem scanMark_cons_eq_error_iff {rest : List Char} {error : SyntaxError} :
    scanMark (first :: rest) = .error error ↔
      error = ⟨0, .unexpectedCharacter first⟩ ∧ markOf? first = none := by
  by_cases hdouble : first = '*' ∧ rest.head? = some '*'
  · obtain ⟨rfl, hstar⟩ := hdouble
    obtain ⟨others, rfl⟩ := List.head?_eq_some_iff.mp hstar
    exact iff_of_false (by rintro ⟨⟩) (by rintro ⟨-, ⟨⟩⟩)
  · rw [scanMark_of_single hdouble]
    cases markOf? first with
    | some mark => exact iff_of_false (by rintro ⟨⟩) (by rintro ⟨-, ⟨⟩⟩)
    | none => rw [Except.error.injEq, eq_comm, and_iff_left rfl]

/-- The lexer fails where no number starts and no name or mark is read. -/
theorem scanLexeme_eq_error_iff {rest : List Char} {error : SyntaxError} :
    scanLexeme (first :: rest) = .error error ↔
      startsNumber (first :: rest) = false ∧
        if isNameStart first = true then scanName (first :: rest) = .error error
        else scanMark (first :: rest) = .error error := by
  by_cases hnumber : startsNumber (first :: rest) = true
  · obtain ⟨⟨numeral, behind⟩, hscan⟩ :=
      Option.isSome_iff_exists.mp ((startsNumber_iff _).mp hnumber)
    simp [scanLexeme, hnumber, hscan]
  · rw [scanLexeme, if_neg hnumber]
    by_cases hstart : isNameStart first = true <;> simp [hstart, hnumber]

/-! ### Texts with and without tokens -/

/-- A text that the lexer reads to its end. -/
def Readable (text : List Char) : Prop :=
  ∃ lexemes, Spells text lexemes

/-- What a text that is not empty spells starts with white space or with a word. -/
theorem Spells.cons_cases {lexemes : List Lexeme} (hspells : Spells (first :: rest) lexemes) :
    (isWhiteSpace first = true ∧ Spells rest lexemes) ∨
      ∃ word lexeme behind others, first :: rest = word ++ behind ∧ lexemes = lexeme :: others ∧
        Reads word lexeme behind ∧ Spells behind others := by
  generalize htext : first :: rest = text at hspells
  cases hspells with
  | nil => cases htext
  | space hwhite hrest => cases htext; exact Or.inl ⟨hwhite, hrest⟩
  | word hreads hrest => exact Or.inr ⟨_, _, _, _, rfl, rfl, hreads, hrest⟩

theorem Reads.not_isWhiteSpace {behind : List Char} (hreads : Reads word lexeme behind)
    (htext : first :: rest = word ++ behind) : isWhiteSpace first = false := by
  obtain ⟨character, others, rfl, hwhite⟩ := hreads.exists_cons
  cases htext
  exact hwhite

theorem readable_cons_iff (hwhite : isWhiteSpace first = true) :
    Readable (first :: rest) ↔ Readable rest := by
  constructor
  · rintro ⟨lexemes, hspells⟩
    rcases hspells.cons_cases with ⟨_, hrest⟩ | ⟨word, lexeme, behind, others, htext, _, hreads, _⟩
    · exact ⟨lexemes, hrest⟩
    · exact absurd (hwhite.symm.trans (hreads.not_isWhiteSpace htext)) (by decide)
  · rintro ⟨lexemes, hspells⟩
    exact ⟨lexemes, .space hwhite hspells⟩

/-- A text is read to its end behind a word just where what follows the word is. -/
theorem readable_append_iff (hreads : Reads word lexeme rest) :
    Readable (word ++ rest) ↔ Readable rest := by
  constructor
  · rintro ⟨lexemes, hspells⟩
    have hscan := scanLexeme_of_reads hreads
    obtain ⟨character, letters, rfl, hwhite⟩ := hreads.exists_cons
    rcases hspells.cons_cases with ⟨hother, _⟩ | ⟨other, _, behind, others, htext, _, hother, hrest⟩
    · exact absurd (hwhite.symm.trans hother) (by decide)
    · have hwords : character :: letters ++ rest = other ++ behind := htext
      rw [hwords, scanLexeme_of_reads hother] at hscan
      have hlength : other.length = (character :: letters).length :=
        congrArg Prod.snd (Except.ok.inj hscan)
      exact ⟨others, (List.append_inj hwords.symm hlength).2 ▸ hrest⟩
  · rintro ⟨lexemes, hspells⟩
    exact ⟨lexeme :: lexemes, .word hreads hspells⟩

theorem not_readable_of_error (hwhite : isWhiteSpace first = false)
    (hscan : ∃ error, scanLexeme (first :: rest) = .error error) : ¬Readable (first :: rest) := by
  rintro ⟨lexemes, hspells⟩
  obtain ⟨error, herror⟩ := hscan
  rcases hspells.cons_cases with ⟨hother, _⟩ | ⟨word, lexeme, behind, others, htext, _, hreads, _⟩
  · exact absurd (hwhite.symm.trans hother) (by decide)
  · rw [htext, scanLexeme_of_reads hreads] at herror
    cases herror

end Formulary.Formula
