import Formulary.Preview
import Formulary.Proofs.Evaluation.SubstitutedFormula
import Formulary.Proofs.Formula.ParserCompleteness

/-!
# Evaluation by substitution and by lookup

To evaluate a formula, the values of a ledger are written into its text, which is then read anew.
For a formula in which words end where tokens do this is the same as to look the names of its tree
up in the ledger: `parse_replace` says that the new text has the tree of the old one with the values
of names in their places, and `evaluateIn_eq_judged_evaluate` that it has the same value.
-/

set_option autoImplicit false
set_option relaxedAutoImplicit false

namespace Formulary

open Formulary.Formula Formulary.Name Formulary.Number Formulary.Text

variable {ledger : Ledger}

/-! ### Levels and judgements -/

/-- A text denotes a tree, and no more levels nest in it than are allowed. -/
def DenotesWithin (levels : Nat) (text : List Char) (tree : Expression) : Prop :=
  ∃ tokens, Token.ofText text = .ok tokens ∧ Derives .sum levels (tokens.map Token.lexeme) tree

/-- A text in which no more levels nest than the parser allows is parsed as what it denotes. -/
theorem DenotesWithin.parse_eq_ok {levels : Nat} {text : List Char} {tree : Expression}
    (hnests : DenotesWithin levels text tree) (hlevels : levels ≤ deepest) :
    parse text = .ok tree := by
  obtain ⟨tokens, htokens, hderives⟩ := hnests
  refine (denotes_iff_parse_eq_ok text tree).mp ⟨tokens, htokens, ?_, hderives.of_le hlevels⟩
  rintro rfl
  obtain ⟨first, rest, hempty, _⟩ := hderives.exists_cons
  cases hempty

theorem denotesWithin_iff {levels : Nat} {text : List Char} {tree : Expression} :
    DenotesWithin levels text tree ↔ ∃ lexemes, Spells text lexemes ∧
      Derives .sum levels lexemes tree := by
  constructor
  · rintro ⟨tokens, htokens, hderives⟩
    exact ⟨_, spells_iff_ofText.mpr ⟨tokens, htokens, rfl⟩, hderives⟩
  · rintro ⟨lexemes, hspells, hderives⟩
    obtain ⟨tokens, htokens, rfl⟩ := spells_iff_ofText.mp hspells
    exact ⟨tokens, htokens, hderives⟩

/-- A text that is parsed denotes what it is parsed as on the levels that are allowed. -/
theorem parse_eq_ok_iff_denotesWithin {text : List Char} {tree : Expression} :
    parse text = .ok tree ↔ DenotesWithin deepest text tree := by
  constructor
  · intro hparse
    obtain ⟨tokens, htokens, _, hderives⟩ := (denotes_iff_parse_eq_ok text tree).mpr hparse
    exact ⟨tokens, htokens, hderives⟩
  · exact fun hdenotes ↦ hdenotes.parse_eq_ok (Nat.le_refl deepest)

/-- A value that was found is finite, and rounded as the settings say. -/
def judged (settings : Settings) : Except EvaluationError Float → Except EvaluationError Float
  | .error error => .error error
  | .ok value =>
    if value.isFinite then .ok (roundTo settings.resultPlaces value) else .error .notFinite

/-- The text of a formula with the values of a ledger in it parses as the tree of the formula with
the values of names in their places. -/
theorem parse_replace {text : List Char} {tree : Expression}
    (hnests : DenotesWithin (deepest - 2) text tree) (htext : Substitutable text)
    (hledger : ledger.Substitutable)
    (hfunctions : ∀ function ∈ tree.functions, ledger.get? function = none) :
    parse (ledger.substitution.replace text) = .ok (tree.withValues ledger.get?) := by
  obtain ⟨lexemes, hspells, hderives⟩ := denotesWithin_iff.mp hnests
  have hreplaced : Spells (ledger.substitution.replace text)
      (lexemes.flatMap (Lexeme.withValues ledger.get?)) :=
    spells_replaceFrom hledger hspells htext hderives.isChain (Or.inl rfl)
  exact parse_eq_ok_iff_denotesWithin.mpr
    (denotesWithin_iff.mpr ⟨_, hreplaced, hderives.withValues hfunctions⟩)

/-- Writing the values of a ledger into a formula agrees with looking its names up. The formula is
plain text without the prefix of functions and without an exponent behind a point, it does not
mention itself, and it nests two levels less than are allowed; the words of the ledger are
identifiers that name no function called in it, and the values are finite and not the negative
zero. -/
theorem evaluateIn_eq_judged_evaluate {formula : String} {tree : Expression}
    (hnests : DenotesWithin (deepest - 2) formula.toList tree)
    (htext : Substitutable formula.toList) (hself : mentionsItself formula = false)
    (hledger : ledger.Substitutable)
    (hfunctions : ∀ function ∈ tree.functions, ledger.get? function = none) :
    parse (ledger.substitution.replace formula.toList) = .ok (tree.withValues ledger.get?) ∧
      ∀ settings, evaluateIn settings ledger formula =
        judged settings (tree.evaluate ledger.get?) := by
  have hparse := parse_replace hnests htext hledger hfunctions
  refine ⟨hparse, fun settings ↦ ?_⟩
  have hvalue : substitutedValue ledger formula = tree.evaluate ledger.get? := by
    rw [substitutedValue, hparse]
    exact evaluate_withValues (fun name value hsome ↦ (hledger.plain name value hsome).1) tree
  rw [evaluateIn, hself, hvalue]
  cases tree.evaluate ledger.get? <;> rfl

/-- A negative value under a power and in a call. -/
theorem evaluateIn_root_of_square :
    parse ((Ledger.mk [⟨"x", -3.0, true⟩]).substitution.replace "sqrt(x ^ 2)".toList) =
        .ok (.call "sqrt" [.binary .power (.signed .negative (.number 3.0)) (.number 2.0)]) ∧
      ∀ settings, evaluateIn settings ⟨[⟨"x", -3.0, true⟩]⟩ "sqrt(x ^ 2)" =
        judged settings
          ((Expression.call "sqrt" [.binary .power (.name "x") (.number 2.0)]).evaluate
            (Ledger.mk [⟨"x", -3.0, true⟩]).get?) := by
  have hsquare : Derives .sum 253 [.name "x", .mark .caret, .number 2.0]
      (.binary .power (.name "x") (.number 2.0)) :=
    .product (.unary (.power (.raise (.name "x") (.power (.primary (.number 2.0))))))
  have hroot : Derives .primary 253
      [.name "sqrt", .mark .openParenthesis, .name "x", .mark .caret, .number 2.0,
        .mark .closeParenthesis]
      (.call "sqrt" [.binary .power (.name "x") (.number 2.0)]) :=
    .call "sqrt" [(_, _)] (by simpa using hsquare)
  have htokens : Token.ofText "sqrt(x ^ 2)".toList =
      .ok [⟨.name "sqrt", 0⟩, ⟨.mark .openParenthesis, 4⟩, ⟨.name "x", 5⟩, ⟨.mark .caret, 7⟩,
        ⟨.number 2.0, 9⟩, ⟨.mark .closeParenthesis, 10⟩] := by decide +kernel
  have hnests : DenotesWithin (deepest - 2) "sqrt(x ^ 2)".toList
      (.call "sqrt" [.binary .power (.name "x") (.number 2.0)]) :=
    ⟨_, htokens, .product (.unary (.power (.primary hroot)))⟩
  have hascii : "sqrt(x ^ 2)".toList.all (fun character ↦ character.toNat < 128) = true := by
    decide +kernel
  have htext : Substitutable "sqrt(x ^ 2)".toList :=
    ⟨fun character hcharacter ↦ of_decide_eq_true (List.all_eq_true.mp hascii _ hcharacter),
      by decide +kernel, by decide +kernel, by decide +kernel⟩
  have hself : mentionsItself "sqrt(x ^ 2)" = false := by decide +kernel
  have hledger : (Ledger.mk [⟨"x", -3.0, true⟩]).Substitutable :=
    substitutable_of_entries (by decide +kernel)
  exact evaluateIn_eq_judged_evaluate hnests htext hself hledger (by decide +kernel)

end Formulary
