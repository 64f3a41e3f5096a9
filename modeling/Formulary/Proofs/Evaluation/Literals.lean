import Formulary.Ledger
import Formulary.Proofs.Formula.Lexing
import Formulary.Proofs.Formula.ValuedExpression
import Formulary.Proofs.Number.DoubleSign
import Formulary.Proofs.Number.ShortestText

/-!
# Values that a formula can hold

A value can be written into a formula if it is finite and not the negative zero. Its literal then
spells the lexemes of the value in front of every text that does not go on with a numeral,
`spells_literal`, and it is a plain numeral, or a minus sign and a plain numeral in parentheses,
`isPlainNumeral_literal`. Of the other finite values it is still known which characters their
literals hold, `mem_literal`.
-/

set_option autoImplicit false
set_option relaxedAutoImplicit false

namespace Formulary

open Formulary.Formula Formulary.Number Formulary.Text

/-- A ledger with finite values other than the negative zero. -/
def Ledger.IsPlain (ledger : Ledger) : Prop :=
  ∀ key value, ledger.get? key = some value → value.isFinite = true ∧ value ≠ -0.0

/-! ### Literals -/

theorem toList_literal (value : Float) : (Ledger.literal value).toList =
    if value < 0.0 then '(' :: (shortestCharacters value ++ [')'])
    else shortestCharacters value := by
  rw [Ledger.literal]
  split <;> simp [shortestText]

variable {rest : List Char} {lexemes : List Lexeme} {value : Float}

theorem spells_shortestCharacters (hfinite : value.isFinite = true)
    (hunsigned : value.toBits.toNat < 2 ^ 63) (hrest : rest.head?.any continuesNumeral = false)
    (hspells : Spells rest lexemes) :
    Spells (shortestCharacters value ++ rest) (.number value :: lexemes) := by
  obtain ⟨numeral, hnumeral, hcharacters, hvalue⟩ :=
    exists_numeral_shortestCharacters hfinite hunsigned
  rw [hcharacters, ← hvalue]
  exact .word (.number (scan_characters_append hnumeral hrest)) hspells

/-- The literal of a value spells its lexemes. -/
theorem spells_literal (hfinite : value.isFinite = true) (hzero : value ≠ -0.0)
    (hrest : rest.head?.any continuesNumeral = false) (hspells : Spells rest lexemes) :
    Spells ((Ledger.literal value).toList ++ rest) (Lexeme.ofValue value ++ lexemes) := by
  rw [toList_literal, Lexeme.ofValue]
  by_cases hnegative : value < 0.0
  · rw [if_pos hnegative, if_pos hnegative, shortestCharacters_of_lt_zero hfinite hnegative]
    have hclose : Spells (')' :: rest) (.mark .closeParenthesis :: lexemes) :=
      .mark rfl (by decide) hspells
    have hnumber := spells_shortestCharacters (isFinite_neg hfinite)
      (unsigned_neg_of_lt_zero hfinite hnegative) rfl hclose
    rw [List.cons_append, List.cons_append, List.cons_append, List.append_assoc]
    exact .mark rfl (by decide) (.mark rfl (by decide) hnumber)
  · rw [if_neg hnegative, if_neg hnegative]
    exact spells_shortestCharacters hfinite (unsigned_of_not_lt_zero hfinite hnegative hzero) hrest
      hspells

/-! ### Literals as numerals -/

/-- A finite value without a sign is written as a plain numeral. -/
theorem isPlainNumeral_shortestCharacters (hfinite : value.isFinite = true)
    (hunsigned : value.toBits.toNat < 2 ^ 63) : IsPlainNumeral (shortestCharacters value) := by
  have hsign : (value.toBits.toNat / 2 ^ 63 == 1) = false := by
    rw [Nat.div_eq_of_lt hunsigned]
    rfl
  rw [shortestCharacters, decode_of_isFinite hfinite, hsign]
  exact isPlainNumeral_positional _

/-- The literal of a finite value other than the negative zero is a plain numeral, or a minus sign
and a plain numeral in parentheses. -/
theorem isPlainNumeral_literal (hfinite : value.isFinite = true) (hzero : value ≠ -0.0) :
    IsPlainNumeral (Ledger.literal value).toList ∨
      ∃ numeral, IsPlainNumeral numeral ∧
        (Ledger.literal value).toList = '(' :: '-' :: (numeral ++ [')']) := by
  rw [toList_literal]
  by_cases hnegative : value < 0.0
  · refine Or.inr ⟨shortestCharacters (-value), ?_, ?_⟩
    · exact isPlainNumeral_shortestCharacters (isFinite_neg hfinite)
        (unsigned_neg_of_lt_zero hfinite hnegative)
    · rw [if_pos hnegative, shortestCharacters_of_lt_zero hfinite hnegative, List.cons_append]
  · rw [if_neg hnegative]
    exact Or.inl (isPlainNumeral_shortestCharacters hfinite
      (unsigned_of_not_lt_zero hfinite hnegative hzero))

/-! ### The characters of literals -/

/-- The literal of a finite value holds digits, points, signs and parentheses. -/
theorem mem_literal (hfinite : value.isFinite = true) {character : Char}
    (hcharacter : character ∈ (Ledger.literal value).toList) :
    isAsciiDigit character = true ∨ character ∈ ['.', '-', '(', ')'] := by
  have hpositional {decimal : Decimal} (hmember : character ∈ decimal.positional) :
      isAsciiDigit character = true ∨ character ∈ ['.', '-', '(', ')'] := by
    refine ((isPlainNumeral_positional decimal).digit_or_point hmember).imp_right ?_
    rintro rfl
    exact List.mem_cons_self
  have hshortest (hmember : character ∈ shortestCharacters value) :
      isAsciiDigit character = true ∨ character ∈ ['.', '-', '(', ')'] := by
    rw [shortestCharacters, decode_of_isFinite hfinite] at hmember
    simp only [signed] at hmember
    split at hmember
    · rcases List.mem_cons.mp hmember with rfl | hlater
      · exact Or.inr (by decide)
      · exact hpositional hlater
    · exact hpositional hmember
  rw [toList_literal] at hcharacter
  split at hcharacter
  · rcases List.mem_cons.mp hcharacter with rfl | hlater
    · exact Or.inr (by decide)
    · rcases List.mem_append.mp hlater with hmember | hclose
      · exact hshortest hmember
      · obtain rfl := List.mem_singleton.mp hclose
        exact Or.inr (by decide)
  · exact hshortest hcharacter

/-- The literal of a finite value is ASCII text in which nothing starts a name. -/
theorem classes_of_mem_literal (hfinite : value.isFinite = true) {character : Char}
    (hcharacter : character ∈ (Ledger.literal value).toList) :
    character.toNat < 128 ∧ isPlainStart character = false := by
  have hmarks : ['.', '-', '(', ')'].all fun mark ↦
      decide (mark.toNat < 128 ∧ isPlainStart mark = false) := by decide
  rcases mem_literal hfinite hcharacter with hdigit | hmark
  · exact ⟨isAscii_of_isAsciiDigit hdigit, isPlainStart_of_isAsciiDigit hdigit⟩
  · exact of_decide_eq_true (List.all_eq_true.mp hmarks character hmark)

end Formulary
