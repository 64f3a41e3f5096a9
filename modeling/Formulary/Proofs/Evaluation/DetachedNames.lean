import Formulary.Proofs.Evaluation.Literals
import Formulary.Proofs.Formula.LexingErrors
import Formulary.Proofs.Formula.VaryingNumbers
import Formulary.Proofs.Ledger.ReplacedNames

/-!
# Names that stand apart in a text

A name that is replaced in a text stands apart if a zero in its place is a token by itself that does
not follow a name, `Detached`. With literals in place of the names, whatever they are, such a text
has the tokens that it has with zeros, but for the numbers that the literals spell, or has no tokens
in either case, `Detached.varies_or_unreadable`.
-/

set_option autoImplicit false
set_option relaxedAutoImplicit false

namespace Formulary

open Formulary.Formula Formulary.Name Formulary.Number Formulary.Text

variable {replacement : List Char → List Char} {parts : List Part} {word : List Char}
  {lexeme : Lexeme}

/-! ### Zeros in place of names -/

/-- The text of some parts with a zero in place of every name. -/
def zeroed (parts : List Part) : List Char :=
  written (fun _ ↦ ['0']) parts

/-- The numeral zero. -/
def zeroNumeral : Numeral :=
  ⟨['0'], none, none⟩

/-- What does not start with a zero in place of a name starts with the same character whatever is
written for names. -/
theorem head?_written (replacement : List Char → List Char)
    (hzero : (zeroed parts).head? ≠ some '0') :
    (written replacement parts).head? = (zeroed parts).head? := by
  cases parts with
  | nil => rfl
  | cons part rest =>
    cases part with
    | character value => rfl
    | name text => exact absurd rfl hzero

theorem head?_ne_zero (inClass : Char → Bool) (hclass : inClass '0' = true) {text : List Char}
    (hhead : text.head?.any inClass = false) : text.head? ≠ some '0' := by
  intro hzero
  rw [hzero] at hhead
  exact Bool.false_ne_true (hhead.symm.trans hclass)

/-- Characters that are kept stand in front of what is written for the rest. -/
theorem written_append (replacement : List Char → List Char) (word : List Char)
    (rest : List Part) :
    written replacement (word.map .character ++ rest) = word ++ written replacement rest := by
  induction word with
  | nil => rfl
  | cons character word ih => exact congrArg (character :: ·) ih

/-- A word without a zero in front of zeros in place of names consists of kept characters. -/
theorem exists_of_zeroed_eq_append {rest : List Char} (hword : '0' ∉ word)
    (hzeroed : zeroed parts = word ++ rest) :
    ∃ later, parts = word.map .character ++ later ∧ zeroed later = rest := by
  induction word generalizing parts with
  | nil => exact ⟨parts, rfl, hzeroed⟩
  | cons character word ih =>
    obtain ⟨hcharacter, hothers⟩ := not_or.mp (mt List.mem_cons.mpr hword)
    cases parts with
    | nil => cases hzeroed
    | cons part parts =>
      cases part with
      | character value =>
        obtain ⟨rfl, hrest⟩ := List.cons.inj hzeroed
        obtain ⟨later, rfl, hlater⟩ := ih hothers hrest
        exact ⟨later, rfl, hlater⟩
      | name text => exact absurd (List.cons.inj hzeroed).1 hcharacter

/-! ### Numerals in front of names -/

theorem head?_takeSign_written (replacement : List Char → List Char)
    (hdigit : (takeSign (zeroed parts)).2.head?.any isAsciiDigit = false) :
    (takeSign (written replacement parts)).2.head?.any isAsciiDigit = false := by
  cases parts with
  | nil => rfl
  | cons part rest =>
    cases part with
    | character value =>
      show (takeSign (value :: written replacement rest)).2.head?.any isAsciiDigit = false
      have hvalue : (takeSign (value :: zeroed rest)).2.head?.any isAsciiDigit = false := hdigit
      rw [takeSign] at hvalue ⊢
      split at hvalue
      · rename_i hsign
        rw [if_pos hsign, head?_written replacement (head?_ne_zero isAsciiDigit rfl hvalue)]
        exact hvalue
      · rename_i hsign
        rw [if_neg hsign]
        exact hvalue
    | name text => simp [zeroed, written, Part.written, takeSign, isAsciiDigit] at hdigit

theorem scanExponent_written (replacement : List Char → List Char)
    (hzero : (zeroed parts).head? ≠ some '0') (hnone : scanExponent (zeroed parts) = none) :
    scanExponent (written replacement parts) = none := by
  cases parts with
  | nil => rfl
  | cons part rest =>
    cases part with
    | character value =>
      exact scanExponent_cons_eq_none_iff.mpr fun hletter ↦
        head?_takeSign_written replacement (scanExponent_cons_eq_none_iff.mp hnone hletter)
    | name text => exact absurd rfl hzero

/-- A numeral that ends in front of zeros in place of names ends in front of what is written for
them. -/
theorem endsAt_written (replacement : List Char → List Char) {numeral : Numeral}
    (hends : numeral.EndsAt (zeroed parts)) : numeral.EndsAt (written replacement parts) := by
  have hzero := head?_ne_zero isAsciiDigit rfl hends.digit
  have hhead := head?_written replacement hzero
  exact ⟨hhead ▸ hends.digit, fun hfraction hexponent ↦ hhead ▸ hends.point hfraction hexponent,
    fun hexponent ↦ scanExponent_written replacement hzero (hends.exponent hexponent)⟩

/-! ### Words in front of names -/

/-- The literal of a value: a plain numeral, or a minus sign and a plain numeral in parentheses. -/
def IsLiteral (text : List Char) : Prop :=
  IsPlainNumeral text ∨ ∃ numeral, IsPlainNumeral numeral ∧ text = '(' :: '-' :: (numeral ++ [')'])

/-- All names of some parts are replaced by literals. -/
def WritesLiterals (replacement : List Char → List Char) (parts : List Part) : Prop :=
  ∀ name, .name name ∈ parts → IsLiteral (replacement name)

theorem WritesLiterals.of_append {front back : List Part}
    (hliterals : WritesLiterals replacement (front ++ back)) : WritesLiterals replacement back :=
  fun name hname ↦ hliterals name (List.mem_append_right front hname)

theorem WritesLiterals.of_cons {part : Part}
    (hliterals : WritesLiterals replacement (part :: parts)) :
    WritesLiterals replacement parts :=
  fun name hname ↦ hliterals name (List.mem_cons_of_mem part hname)

theorem IsLiteral.head?_ne_star {text : List Char} (htext : IsLiteral text) (rest : List Char) :
    (text ++ rest).head? ≠ some '*' := by
  rcases htext with ⟨numeral, hnumeral, _, rfl⟩ | ⟨numeral, _, rfl⟩
  · obtain ⟨first, others, hcharacters, hfirst⟩ := hnumeral.exists_cons
    rw [hcharacters]
    rintro ⟨⟩
    exact absurd hfirst (by decide)
  · simp

theorem head?_written_ne_star (hliterals : WritesLiterals replacement parts)
    (hstar : (zeroed parts).head? ≠ some '*') :
    (written replacement parts).head? ≠ some '*' := by
  cases parts with
  | nil => exact hstar
  | cons part rest =>
    cases part with
    | character value => exact hstar
    | name text => exact (hliterals text List.mem_cons_self).head?_ne_star _

/-- A word that is read in front of zeros in place of names is read in front of literals. -/
theorem reads_written (hliterals : WritesLiterals replacement parts)
    (hreads : Reads word lexeme (zeroed parts)) :
    Reads word lexeme (written replacement parts) := by
  have hname (hrest : (zeroed parts).head?.any isNameCharacter = false) :=
    head?_written replacement (head?_ne_zero isNameCharacter (by decide +kernel) hrest)
  cases hreads with
  | number hscan =>
    have hnumeral := wellFormed_of_scan hscan
    have hends := (scan_characters_append_iff hnumeral).mp hscan
    exact .number ((scan_characters_append_iff hnumeral).mpr (endsAt_written replacement hends))
  | name hstart hothers hrest hplain =>
    refine .name hstart hothers ?_ ?_
    · rw [hname hrest, hrest]
    · rwa [hname hrest]
  | function hnonempty hword hrest =>
    refine .function hnonempty hword ?_
    rw [hname hrest, hrest]
  | power => exact .power
  | mark hmark hdouble =>
    exact .mark hmark fun hstars ↦
      head?_written_ne_star hliterals (fun hstar ↦ hdouble ⟨hstars.1, hstar⟩) hstars.2

/-! ### Characters that are not read -/

variable {first : Char} {error : SyntaxError}

theorem startsNumber_written (replacement : List Char → List Char)
    (hnumber : startsNumber (first :: zeroed parts) = false) :
    startsNumber (first :: written replacement parts) = false := by
  rw [← Bool.not_eq_true, startsNumber_cons, not_or, not_and] at hnumber ⊢
  refine ⟨hnumber.1, fun hpoint hdigit ↦ hnumber.2 hpoint ?_⟩
  by_cases hzero : (zeroed parts).head? = some '0'
  · rw [hzero]
    rfl
  · rwa [head?_written replacement hzero] at hdigit

/-- The prefix of functions without a function in front of zeros in place of names is so in front of
whatever is written for them. -/
theorem scanName_written_error (replacement : List Char → List Char)
    (hscan : ∃ error, scanName (first :: zeroed parts) = .error error) :
    ∃ error, scanName (first :: written replacement parts) = .error error := by
  obtain ⟨error, hscan⟩ := hscan
  obtain ⟨-, rest, htext, hrest⟩ := scanName_eq_error_iff.mp hscan
  have hzeroed : first = 'M' ∧ zeroed parts = ['a', 't', 'h', '.'] ++ rest := List.cons.inj htext
  obtain ⟨rfl, hzeroed⟩ := hzeroed
  obtain ⟨later, rfl, rfl⟩ := exists_of_zeroed_eq_append (by decide) hzeroed
  refine ⟨_, scanName_eq_error_iff.mpr ⟨rfl, written replacement later, ?_, ?_⟩⟩
  · rw [written_append]
    rfl
  · rw [head?_written replacement (head?_ne_zero isNameCharacter (by decide +kernel) hrest), hrest]

/-- A character at which the lexer fails in front of zeros in place of names is one at which it
fails in front of whatever is written for them. -/
theorem scanLexeme_written_error (replacement : List Char → List Char)
    (hscan : ∃ error, scanLexeme (first :: zeroed parts) = .error error) :
    ∃ error, scanLexeme (first :: written replacement parts) = .error error := by
  obtain ⟨error, hscan⟩ := hscan
  obtain ⟨hnumber, hother⟩ := scanLexeme_eq_error_iff.mp hscan
  have hwritten := startsNumber_written replacement hnumber
  split at hother
  · rename_i hstart
    obtain ⟨failure, hfails⟩ := scanName_written_error replacement ⟨error, hother⟩
    exact ⟨failure, scanLexeme_eq_error_iff.mpr ⟨hwritten, by rwa [if_pos hstart]⟩⟩
  · rename_i hstart
    obtain ⟨rfl, hnone⟩ := scanMark_cons_eq_error_iff.mp hother
    exact ⟨_, scanLexeme_eq_error_iff.mpr
      ⟨hwritten, by rw [if_neg hstart, scanMark_cons_eq_error_iff]; exact ⟨rfl, hnone⟩⟩⟩

/-! ### Literals and what follows them -/

variable {rest : List Char}

/-- What a zero ends in front of, every numeral ends in front of. -/
theorem endsAt_of_zero (hends : zeroNumeral.EndsAt rest) (numeral : Numeral) :
    numeral.EndsAt rest :=
  ⟨hends.digit, fun _ _ ↦ hends.point rfl rfl, fun _ ↦ hends.exponent rfl⟩

theorem reads_of_isPlainNumeral {text : List Char} (htext : IsPlainNumeral text)
    (hends : zeroNumeral.EndsAt rest) : ∃ value, Reads text (.number value) rest := by
  obtain ⟨numeral, hnumeral, _, rfl⟩ := htext
  exact ⟨numeral.value,
    .number ((scan_characters_append_iff hnumeral).mpr (endsAt_of_zero hends numeral))⟩

theorem reads_zero (hends : zeroNumeral.EndsAt rest) :
    Reads ['0'] (.number zeroNumeral.value) rest := by
  have hzero : zeroNumeral.WellFormed := ⟨by decide, rfl, Or.inl (by decide), by simp [zeroNumeral]⟩
  exact .number ((scan_characters_append_iff hzero).mpr hends)

theorem readable_mark_cons_iff {character : Char} {mark : Mark}
    (hmark : markOf? character = some mark) (hstar : character ≠ '*') :
    Readable (character :: rest) ↔ Readable rest :=
  readable_append_iff (.mark hmark fun hdouble ↦ hstar hdouble.1)

/-- In front of what a zero ends in front of, a literal is one number or a negative number in
parentheses, and it does not keep the lexer from what follows. -/
theorem IsLiteral.spells {text : List Char} (htext : IsLiteral text)
    (hends : zeroNumeral.EndsAt rest) :
    (Readable (text ++ rest) ↔ Readable rest) ∧
      ∃ value lexemes, (lexemes = [.number value] ∨ lexemes = negativeLexemes value) ∧
        ∀ others, Spells rest others → Spells (text ++ rest) (lexemes ++ others) := by
  rcases htext with hplain | ⟨numeral, hplain, rfl⟩
  · obtain ⟨value, hreads⟩ := reads_of_isPlainNumeral hplain hends
    exact ⟨readable_append_iff hreads, value, _, Or.inl rfl, fun others ↦ .word hreads⟩
  · have hclose : zeroNumeral.EndsAt (')' :: rest) :=
      ⟨rfl, fun _ _ ↦ by simp, fun _ ↦ by simp [scanExponent]⟩
    obtain ⟨value, hreads⟩ := reads_of_isPlainNumeral hplain hclose
    have hwhole : '(' :: '-' :: (numeral ++ [')']) ++ rest =
        '(' :: '-' :: (numeral ++ ')' :: rest) := by simp
    rw [hwhole]
    refine ⟨?_, value, _, Or.inr rfl, fun others hothers ↦ ?_⟩
    · rw [readable_mark_cons_iff rfl (by decide), readable_mark_cons_iff rfl (by decide),
        readable_append_iff hreads, readable_mark_cons_iff rfl (by decide)]
    · have hbehind : Spells (')' :: rest) (.mark .closeParenthesis :: others) :=
        .mark rfl (by decide) hothers
      exact .mark rfl (by decide) (.mark rfl (by decide) (.word hreads hbehind))

/-! ### Names that stand apart -/

/-- Parts behind `before` in which every name stands apart: a zero in its place is a token by
itself that does not follow a name. Nothing is asked behind a character at which the lexer fails. -/
inductive Detached : Option Lexeme → List Part → Prop
  | nil {before : Option Lexeme} : Detached before []
  | space {before : Option Lexeme} {character : Char} {rest : List Part} :
    isWhiteSpace character = true → Detached before rest →
    Detached before (.character character :: rest)
  | word {before : Option Lexeme} {word : List Char} {lexeme : Lexeme} {rest : List Part} :
    Reads word lexeme (zeroed rest) → Detached (some lexeme) rest →
    Detached before (word.map .character ++ rest)
  | name {before : Option Lexeme} {rest : List Part} (text : List Char) :
    (∀ function, before ≠ some (.name function)) → zeroNumeral.EndsAt (zeroed rest) →
    Detached (some (.number zeroNumeral.value)) rest → Detached before (.name text :: rest)
  | unreadable {before : Option Lexeme} {character : Char} {rest : List Part} :
    isWhiteSpace character = false →
    (∃ error, scanLexeme (character :: zeroed rest) = .error error) →
    Detached before (.character character :: rest)

/-- Where names stand apart, the text with literals for them has the tokens that it has with zeros,
but for the numbers of the literals, or neither text has tokens. -/
theorem Detached.varies_or_unreadable {before : Option Lexeme} (hdetached : Detached before parts)
    (hliterals : WritesLiterals replacement parts) :
    (∃ zeros lexemes, Spells (zeroed parts) zeros ∧ Spells (written replacement parts) lexemes ∧
        Varies before zeros lexemes) ∨
      ¬Readable (zeroed parts) ∧ ¬Readable (written replacement parts) := by
  induction hdetached with
  | nil => exact Or.inl ⟨[], [], .nil, .nil, .nil⟩
  | space hwhite _ ih =>
    rcases ih hliterals.of_cons with ⟨zeros, lexemes, hzeros, hlexemes, hvaries⟩ | hneither
    · exact Or.inl ⟨zeros, lexemes, .space hwhite hzeros, .space hwhite hlexemes, hvaries⟩
    · exact Or.inr (hneither.imp (mt (readable_cons_iff hwhite).mp)
        (mt (readable_cons_iff hwhite).mp))
  | @word before word lexeme rest hreads _ ih =>
    have hwritten := reads_written hliterals.of_append hreads
    rw [zeroed, written_append, written_append]
    rcases ih hliterals.of_append with ⟨zeros, lexemes, hzeros, hlexemes, hvaries⟩ | hneither
    · exact Or.inl ⟨_, _, .word hreads hzeros, .word hwritten hlexemes, .keep lexeme hvaries⟩
    · exact Or.inr (hneither.imp (mt (readable_append_iff hreads).mp)
        (mt (readable_append_iff hwritten).mp))
  | @name before rest text hname hends _ ih =>
    have hzero := reads_zero hends
    obtain ⟨hreadable, value, literal, hliteral, hspells⟩ :=
      (hliterals text List.mem_cons_self).spells (endsAt_written replacement hends)
    rcases ih hliterals.of_cons with ⟨zeros, lexemes, hzeros, hlexemes, hvaries⟩ | hneither
    · refine Or.inl ⟨_, _, .word hzero hzeros, hspells lexemes hlexemes, ?_⟩
      rcases hliteral with rfl | rfl
      · exact .number _ value hvaries
      · exact .negative _ value hname hvaries
    · exact Or.inr (hneither.imp (mt (readable_append_iff hzero).mp) (mt hreadable.mp))
  | unreadable hwhite hscan =>
    exact Or.inr ⟨not_readable_of_error hwhite hscan,
      not_readable_of_error hwhite (scanLexeme_written_error replacement hscan)⟩

end Formulary
