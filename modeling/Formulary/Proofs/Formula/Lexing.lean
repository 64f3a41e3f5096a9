import Formulary.Proofs.Number.NumeralText

/-!
# What a text spells

`Reads word lexeme rest` says which words the lexer takes for a lexeme in front of a rest, and
`Spells text lexemes` that a text is such words with white space between them. Both say what the
lexer does without saying how: `reads_of_scanLexeme` and `scanLexeme_of_reads` tie the first one to
a single step of it, and `spells_iff_ofText` the second one to all of it. Where the words are is
kept in `SpellsAt`.
-/

set_option autoImplicit false
set_option relaxedAutoImplicit false

namespace Formulary.Formula

open Formulary.Text Formulary.Number

/-! ### Words and texts -/

/-- A word that is read as a lexeme where a rest follows. -/
inductive Reads : List Char → Lexeme → List Char → Prop
  | number {numeral : Numeral} {rest : List Char} :
    Numeral.scan (numeral.characters ++ rest) = some (numeral, rest) →
    Reads numeral.characters (.number numeral.value) rest
  | name {first : Char} {others rest : List Char} :
    isNameStart first = true → others.all isNameCharacter = true →
    rest.head?.any isNameCharacter = false →
    ¬(first :: others = functionPrefix ∧ rest.head? = some '.') →
    Reads (first :: others) (.name (String.ofList (first :: others))) rest
  | function {word rest : List Char} :
    word ≠ [] → word.all isNameCharacter = true → rest.head?.any isNameCharacter = false →
    Reads (functionPrefix ++ '.' :: word) (.name (String.ofList word)) rest
  | power {rest : List Char} : Reads ['*', '*'] (.mark .caret) rest
  | mark {character : Char} {mark : Mark} {rest : List Char} :
    markOf? character = some mark → ¬(character = '*' ∧ rest.head? = some '*') →
    Reads [character] (.mark mark) rest

/-- A text that consists of words for some lexemes, with white space between them. -/
inductive Spells : List Char → List Lexeme → Prop
  | nil : Spells [] []
  | space {character : Char} {rest : List Char} {lexemes : List Lexeme} :
    isWhiteSpace character = true → Spells rest lexemes → Spells (character :: rest) lexemes
  | word {word rest : List Char} {lexeme : Lexeme} {lexemes : List Lexeme} :
    Reads word lexeme rest → Spells rest lexemes → Spells (word ++ rest) (lexeme :: lexemes)

/-- A mark that is no star, in front of a text. -/
theorem Spells.mark {character : Char} {mark : Mark} {rest : List Char} {lexemes : List Lexeme}
    (hmark : markOf? character = some mark) (hstar : character ≠ '*')
    (hspells : Spells rest lexemes) : Spells (character :: rest) (.mark mark :: lexemes) :=
  .word (.mark hmark fun hdouble ↦ hstar hdouble.1) hspells

/-! ### Numbers -/

/-- What a number starts with, white space and names do not. -/
theorem startsNumber_cons {first : Char} {rest : List Char} :
    startsNumber (first :: rest) = true ↔
      isAsciiDigit first = true ∨ (first = '.' ∧ rest.head?.any isAsciiDigit = true) := by
  cases rest <;> simp [startsNumber]

/-- A text starts with a number exactly if a numeral can be scanned. -/
theorem startsNumber_iff (text : List Char) :
    startsNumber text = true ↔ (Numeral.scan text).isSome = true := by
  cases text with
  | nil => decide
  | cons first rest =>
    rw [startsNumber_cons, Numeral.scan]
    by_cases hdigit : isAsciiDigit first = true
    · simp [hdigit]
    · by_cases hpoint : first = '.'
      · have hother : isAsciiDigit '.' = false := by decide
        cases rest with
        | nil => simp [hpoint, takeFraction, hother]
        | cons second others =>
          by_cases hsecond : isAsciiDigit second = true <;>
            simp [hpoint, takeFraction, hother, hsecond]
      · simp [hdigit, hpoint, takeFraction]

/-! ### One step of the lexer -/

variable {word rest : List Char} {lexeme : Lexeme} {first : Char} {width : Nat}

theorem reads_of_scanName (hstart : isNameStart first = true)
    (hscan : scanName (first :: rest) = .ok (lexeme, width)) :
    ∃ word after, first :: rest = word ++ after ∧ width = word.length ∧
      Reads word lexeme after := by
  have hcharacter := isNameCharacter_of_isNameStart hstart
  have hword : (first :: rest).takeWhile isNameCharacter =
      first :: rest.takeWhile isNameCharacter := List.takeWhile_cons_of_pos hcharacter
  have htext : first :: rest = (first :: rest.takeWhile isNameCharacter) ++
      (first :: rest).dropWhile isNameCharacter := by
    rw [← hword, List.takeWhile_append_dropWhile]
  have hrest := head?_dropWhile_any isNameCharacter (first :: rest)
  simp only [scanName, hword] at hscan
  generalize (first :: rest).dropWhile isNameCharacter = after at hscan htext hrest
  split at hscan
  · rename_i behind
    split at hscan
    · rename_i hbegins
      split at hscan
      · simp at hscan
      · rename_i hfunction
        simp only [Except.ok.injEq, Prod.mk.injEq] at hscan
        obtain ⟨rfl, rfl⟩ := hscan
        refine ⟨functionPrefix ++ '.' :: behind.takeWhile isNameCharacter,
          behind.dropWhile isNameCharacter, ?_, ?_, .function ?_ List.all_takeWhile
            (head?_dropWhile_any _ _)⟩
        · simp [htext, hbegins]
        · simp [hbegins]
          omega
        · simpa using hfunction
    · rename_i hbegins
      simp only [Except.ok.injEq, Prod.mk.injEq] at hscan
      obtain ⟨rfl, rfl⟩ := hscan
      exact ⟨_, _, htext, rfl, .name hstart List.all_takeWhile hrest fun h ↦ hbegins h.1⟩
  · rename_i hpoint
    simp only [Except.ok.injEq, Prod.mk.injEq] at hscan
    obtain ⟨rfl, rfl⟩ := hscan
    refine ⟨_, _, htext, rfl, .name hstart List.all_takeWhile hrest fun h ↦ ?_⟩
    obtain ⟨behind, hbehind⟩ := List.head?_eq_some_iff.mp h.2
    exact hpoint behind hbehind

/-- A character that is not the first one of two stars is a mark by itself. -/
theorem scanMark_of_single {character : Char}
    (hsingle : ¬(character = '*' ∧ rest.head? = some '*')) :
    scanMark (character :: rest) =
      match markOf? character with
      | some mark => .ok (.mark mark, 1)
      | none => .error ⟨0, .unexpectedCharacter character⟩ := by
  unfold scanMark
  split
  · rename_i others hstars
    obtain ⟨rfl, rfl⟩ := List.cons.inj hstars
    exact absurd ⟨rfl, rfl⟩ hsingle
  · rename_i hother
    obtain ⟨rfl, rfl⟩ := List.cons.inj hother
    rfl
  · rename_i hempty
    cases hempty

theorem reads_of_scanMark {text : List Char} (hscan : scanMark text = .ok (lexeme, width)) :
    ∃ word rest, text = word ++ rest ∧ width = word.length ∧ Reads word lexeme rest := by
  cases text with
  | nil => cases hscan
  | cons character rest =>
    by_cases hdouble : character = '*' ∧ rest.head? = some '*'
    · obtain ⟨rfl, hstar⟩ := hdouble
      obtain ⟨others, rfl⟩ := List.head?_eq_some_iff.mp hstar
      cases hscan
      exact ⟨['*', '*'], others, rfl, rfl, .power⟩
    · rw [scanMark_of_single hdouble] at hscan
      cases hmark : markOf? character with
      | none =>
        rw [hmark] at hscan
        cases hscan
      | some mark =>
        rw [hmark] at hscan
        cases hscan
        exact ⟨[character], rest, rfl, rfl, .mark hmark hdouble⟩

theorem reads_of_scanLexeme {text : List Char} (hscan : scanLexeme text = .ok (lexeme, width)) :
    ∃ word rest, text = word ++ rest ∧ width = word.length ∧ Reads word lexeme rest := by
  unfold scanLexeme at hscan
  split at hscan
  · rename_i hnumber
    obtain ⟨⟨numeral, rest⟩, hnumeral⟩ :=
      Option.isSome_iff_exists.mp ((startsNumber_iff text).mp hnumber)
    rw [hnumeral] at hscan
    simp only [Except.ok.injEq, Prod.mk.injEq] at hscan
    obtain ⟨rfl, rfl⟩ := hscan
    have htext := Numeral.eq_append_of_scan hnumeral
    rw [htext] at hnumeral
    exact ⟨numeral.characters, rest, htext, rfl, .number hnumeral⟩
  · split at hscan
    · rename_i hstart
      cases text with
      | nil => simp at hstart
      | cons first rest => exact reads_of_scanName hstart hscan
    · exact reads_of_scanMark hscan

/-- A word has a first character, which is no white space. -/
theorem Reads.exists_cons (hreads : Reads word lexeme rest) :
    ∃ first others, word = first :: others ∧ isWhiteSpace first = false := by
  cases hreads with
  | number hscan =>
    obtain ⟨first, others, hcharacters, hfirst⟩ := (wellFormed_of_scan hscan).exists_cons
    refine ⟨first, others, hcharacters, ?_⟩
    rcases hfirst with hdigit | rfl
    · exact isWhiteSpace_of_isAsciiDigit hdigit
    · decide
  | name hstart _ _ _ =>
    exact ⟨_, _, rfl, isWhiteSpace_of_isNameCharacter (isNameCharacter_of_isNameStart hstart)⟩
  | function _ _ _ => exact ⟨'M', _, rfl, by decide⟩
  | power => exact ⟨'*', _, rfl, by decide⟩
  | mark hmark _ => exact ⟨_, _, rfl, (classes_of_markOf? hmark).2.2.1⟩

/-- Only a digit or a point starts a number. -/
theorem startsNumber_of_not {first : Char} (hdigit : isAsciiDigit first = false)
    (hpoint : first ≠ '.') (rest : List Char) : ¬startsNumber (first :: rest) = true := by
  rw [startsNumber_cons]
  simp [hdigit, hpoint]

theorem scanLexeme_of_name {others : List Char} (hstart : isNameStart first = true)
    (hothers : others.all isNameCharacter = true) (hrest : rest.head?.any isNameCharacter = false)
    (hplain : ¬(first :: others = functionPrefix ∧ rest.head? = some '.')) :
    scanLexeme (first :: others ++ rest) =
      .ok (.name (String.ofList (first :: others)), (first :: others).length) := by
  have hfirst := isNameCharacter_of_isNameStart hstart
  have hdigit := isAsciiDigit_of_isNameStart hstart
  have hpoint : first ≠ '.' := by
    rintro rfl
    exact absurd hstart (by decide)
  have hrun : (first :: others).all isNameCharacter = true := by simp [hfirst, hothers]
  obtain ⟨htake, hdrop⟩ := takeWhile_run hrun hrest
  have hnumber : ¬startsNumber (first :: others ++ rest) = true :=
    startsNumber_of_not hdigit hpoint _
  rw [scanLexeme, if_neg hnumber, if_pos (by simp [hstart]), scanName]
  simp only [htake, hdrop]
  split
  · rename_i behind
    rw [if_neg fun h ↦ hplain ⟨h, rfl⟩]
  · rfl

theorem scanLexeme_of_function (hnonempty : word ≠ []) (hword : word.all isNameCharacter = true)
    (hrest : rest.head?.any isNameCharacter = false) :
    scanLexeme (functionPrefix ++ '.' :: word ++ rest) =
      .ok (.name (String.ofList word), (functionPrefix ++ '.' :: word).length) := by
  obtain ⟨htake, hdrop⟩ := takeWhile_run hword hrest
  have hletters : functionPrefix.all isNameCharacter = true := by decide
  have hend : ('.' :: (word ++ rest)).head?.any isNameCharacter = false := by
    show isNameCharacter '.' = false
    decide
  obtain ⟨hbegins, hbehind⟩ := takeWhile_run hletters hend
  have hnumber : ¬startsNumber (functionPrefix ++ '.' :: (word ++ rest)) = true :=
    startsNumber_of_not (by decide) (by decide) _
  have hstart : (functionPrefix ++ '.' :: (word ++ rest)).head?.any isNameStart = true := by
    show isNameStart 'M' = true
    decide
  rw [List.append_assoc, List.cons_append, scanLexeme, if_neg hnumber, if_pos hstart, scanName]
  simp only [hbegins, hbehind, htake, if_true, List.isEmpty_iff, hnonempty, if_false,
    List.length_append, List.length_cons, Nat.add_assoc, Nat.add_comm 1]

theorem scanLexeme_of_mark {character : Char} {mark : Mark} (hmark : markOf? character = some mark)
    (hdouble : ¬(character = '*' ∧ rest.head? = some '*')) :
    scanLexeme (character :: rest) = .ok (.mark mark, 1) := by
  obtain ⟨_, hname, _, hpoint⟩ := classes_of_markOf? hmark
  have hstart : isNameStart character = false := by
    refine Bool.eq_false_iff.mpr fun hstart ↦ ?_
    rw [isNameCharacter_of_isNameStart hstart] at hname
    cases hname
  have hnumber := startsNumber_of_not (isAsciiDigit_of_not_isNameCharacter hname) hpoint rest
  rw [scanLexeme, if_neg hnumber, if_neg (by simp [hstart]), scanMark_of_single hdouble, hmark]

theorem scanLexeme_of_reads (hreads : Reads word lexeme rest) :
    scanLexeme (word ++ rest) = .ok (lexeme, word.length) := by
  cases hreads with
  | number hscan =>
    have hstarts := (startsNumber_iff _).mpr (Option.isSome_iff_exists.mpr ⟨_, hscan⟩)
    rw [scanLexeme, if_pos hstarts, hscan]
  | name hstart hothers hrest hplain => exact scanLexeme_of_name hstart hothers hrest hplain
  | function hnonempty hword hrest => exact scanLexeme_of_function hnonempty hword hrest
  | power => rfl
  | mark hmark hdouble => exact scanLexeme_of_mark hmark hdouble

/-! ### The whole lexer -/

/-- A text whose first character has a position consists of words for some tokens, each of which is
where the token says, with white space between them. -/
inductive SpellsAt : Nat → List Char → List Token → Prop
  | nil {position : Nat} : SpellsAt position [] []
  | space {position : Nat} {character : Char} {rest : List Char} {tokens : List Token} :
    isWhiteSpace character = true → SpellsAt (position + 1) rest tokens →
    SpellsAt position (character :: rest) tokens
  | word {position : Nat} {word rest : List Char} {lexeme : Lexeme} {tokens : List Token} :
    Reads word lexeme rest → SpellsAt (position + word.length) rest tokens →
    SpellsAt position (word ++ rest) (⟨lexeme, position⟩ :: tokens)

theorem SpellsAt.spells {position : Nat} {text : List Char} {tokens : List Token}
    (hspells : SpellsAt position text tokens) : Spells text (tokens.map Token.lexeme) := by
  induction hspells with
  | nil => exact .nil
  | space hwhite _ ih => exact .space hwhite ih
  | word hreads _ ih => exact .word hreads ih

theorem spellsAt_of_tokensFrom {rounds position : Nat} {text : List Char} {tokens : List Token}
    (hrounds : text.length ≤ rounds) (htokens : tokensFrom rounds position text = .ok tokens) :
    SpellsAt position text tokens := by
  induction rounds generalizing position text tokens with
  | zero =>
    obtain rfl : text = [] := List.eq_nil_of_length_eq_zero (Nat.le_zero.mp hrounds)
    obtain rfl : [] = tokens := Except.ok.inj htokens
    exact .nil
  | succ rounds ih =>
    cases text with
    | nil =>
      obtain rfl : [] = tokens := Except.ok.inj htokens
      exact .nil
    | cons character rest =>
      rw [tokensFrom] at htokens
      split at htokens
      · rename_i hwhite
        exact .space hwhite (ih (Nat.le_of_succ_le_succ hrounds) htokens)
      · split at htokens
        · simp at htokens
        · rename_i lexeme width hscan
          obtain ⟨word, after, htext, rfl, hreads⟩ := reads_of_scanLexeme hscan
          rw [htext, List.drop_left] at htokens
          split at htokens
          · simp at htokens
          · rename_i others hothers
            obtain rfl := Except.ok.inj htokens
            obtain ⟨first, letters, rfl, _⟩ := hreads.exists_cons
            have hlength : after.length ≤ rounds := by
              have hsame := congrArg List.length htext
              simp only [List.length_append, List.length_cons] at hsame hrounds
              omega
            rw [htext]
            exact .word hreads (ih hlength hothers)

theorem Spells.exists_tokensFrom {text : List Char} {lexemes : List Lexeme}
    (hspells : Spells text lexemes) {rounds : Nat} (hrounds : text.length ≤ rounds)
    (position : Nat) :
    ∃ tokens, tokensFrom rounds position text = .ok tokens ∧
      tokens.map Token.lexeme = lexemes := by
  induction hspells generalizing rounds position with
  | nil => exact ⟨[], by cases rounds <;> rfl, rfl⟩
  | @space character rest lexemes hwhite _ ih =>
    cases rounds with
    | zero => simp at hrounds
    | succ rounds =>
      rw [tokensFrom, if_pos hwhite]
      exact ih (Nat.le_of_succ_le_succ hrounds) (position + 1)
  | @word word rest lexeme lexemes hreads _ ih =>
    have hscan := scanLexeme_of_reads hreads
    obtain ⟨first, letters, hword, hwhite⟩ := hreads.exists_cons
    cases rounds with
    | zero => simp [hword] at hrounds
    | succ rounds =>
      have hlength : rest.length ≤ rounds := by
        simp only [hword, List.length_append, List.length_cons] at hrounds
        omega
      obtain ⟨tokens, htokens, rfl⟩ := ih hlength (position + word.length)
      refine ⟨⟨lexeme, position⟩ :: tokens, ?_, rfl⟩
      have htext : word ++ rest = first :: (letters ++ rest) := by rw [hword, List.cons_append]
      rw [htext, tokensFrom, if_neg (by simp [hwhite]), ← htext, hscan]
      simp only [List.drop_left, htokens]

/-- A text spells the lexemes of its tokens and no others. -/
theorem spells_iff_ofText {text : List Char} {lexemes : List Lexeme} :
    Spells text lexemes ↔
      ∃ tokens, Token.ofText text = .ok tokens ∧ tokens.map Token.lexeme = lexemes := by
  constructor
  · exact fun hspells ↦ hspells.exists_tokensFrom (Nat.le_refl _) 0
  · rintro ⟨tokens, htokens, rfl⟩
    exact (spellsAt_of_tokensFrom (Nat.le_refl _) htokens).spells

end Formulary.Formula
