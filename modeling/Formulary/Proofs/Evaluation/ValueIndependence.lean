import Formulary.Proofs.Evaluation.DetachedNames
import Formulary.Proofs.Evaluation.EvaluationByLookup

/-!
# What values cannot make of a formula

Whether a formula is accepted as text depends on the names that a ledger knows, not on their values.
The main statement, `isSyntaxError_evaluateIn_congr`, is about two ledgers that know the same words:
the evaluation of a formula ends with a syntax error with one of them just if it does with the
other. It is asked that the replaced names stand apart in the formula and that no more levels nest
in it than the parser allows but two, which the parentheses and the sign of a value may take. Where
a name does not stand apart, a value can make the difference, and so can the negative zero, which
has no parentheses around its sign, `isSyntaxError_differs`.
-/

set_option autoImplicit false
set_option relaxedAutoImplicit false

namespace Formulary

open Formulary.Formula Formulary.Name Formulary.Number Formulary.Text

/-! ### Syntax errors -/

/-- Whether an evaluation ended with a syntax error. -/
def isSyntaxError : Except EvaluationError Float → Bool
  | .error (.syntaxError _) => true
  | _ => false

variable {lookUp : String → Option Float}

theorem isSyntaxError_nameValue (name : String) :
    isSyntaxError (nameValue lookUp name) = false := by
  unfold nameValue
  split <;> rfl

theorem isSyntaxError_foldArguments (function : String) (choose : Float → Float → Float)
    (arguments : List Float) : isSyntaxError (foldArguments function choose arguments) = false := by
  cases arguments <;> rfl

theorem isSyntaxError_applyFunction (function : String) (arguments : List Float) :
    isSyntaxError (applyFunction function arguments) = false := by
  unfold applyFunction
  split
  · exact isSyntaxError_foldArguments ..
  · exact isSyntaxError_foldArguments ..
  · split <;> rfl
  · split <;> rfl

mutual

/-- The evaluation of a tree ends with no syntax error. -/
theorem isSyntaxError_evaluate (tree : Expression) :
    isSyntaxError (tree.evaluate lookUp) = false := by
  cases tree with
  | number value => rfl
  | name text =>
    rw [Expression.evaluate]
    exact isSyntaxError_nameValue text
  | signed sign operand =>
    have hoperand := isSyntaxError_evaluate operand
    rw [Expression.evaluate]
    cases hvalue : operand.evaluate lookUp with
    | error error => rwa [hvalue] at hoperand
    | ok value => rfl
  | binary operator left right =>
    have hleft := isSyntaxError_evaluate left
    have hright := isSyntaxError_evaluate right
    rw [Expression.evaluate]
    cases hfirst : left.evaluate lookUp with
    | error error => rwa [hfirst] at hleft
    | ok first =>
      cases hsecond : right.evaluate lookUp with
      | error error => rwa [hsecond] at hright
      | ok second => rfl
  | call function arguments =>
    rw [Expression.evaluate]
    cases hvalues : evaluateAll lookUp arguments with
    | error error => exact isSyntaxError_evaluateAll arguments hvalues
    | ok values => exact isSyntaxError_applyFunction function values

theorem isSyntaxError_evaluateAll (trees : List Expression) {error : EvaluationError}
    (herror : evaluateAll lookUp trees = .error error) : isSyntaxError (.error error) = false := by
  cases trees with
  | nil => cases herror
  | cons first rest =>
    have hfirst := isSyntaxError_evaluate first
    rw [evaluateAll] at herror
    cases hvalue : first.evaluate lookUp with
    | error other =>
      rw [hvalue] at hfirst herror
      cases herror
      exact hfirst
    | ok value =>
      rw [hvalue] at herror
      cases hvalues : evaluateAll lookUp rest with
      | error other =>
        rw [hvalues] at herror
        cases herror
        exact isSyntaxError_evaluateAll rest hvalues
      | ok values =>
        rw [hvalues] at herror
        cases herror

end

/-! ### Formulas and their lexemes -/

variable {text : List Char} {levels : Nat}

theorem spells_unique {lexemes others : List Lexeme} (hlexemes : Spells text lexemes)
    (hothers : Spells text others) : lexemes = others := by
  obtain ⟨tokens, htokens, rfl⟩ := spells_iff_ofText.mp hlexemes
  obtain ⟨otherTokens, hother, rfl⟩ := spells_iff_ofText.mp hothers
  rw [Except.ok.inj (htokens.symm.trans hother)]

/-- An evaluation ends with a syntax error just if the formula with the values in it denotes
nothing. -/
theorem isSyntaxError_evaluateIn_iff (settings : Settings) (ledger : Ledger) (formula : String) :
    isSyntaxError (evaluateIn settings ledger formula) = true ↔
      mentionsItself formula = false ∧
        ¬∃ tree, DenotesWithin deepest (ledger.substitution.replace formula.toList) tree := by
  simp only [← parse_eq_ok_iff_denotesWithin]
  rw [evaluateIn, substitutedValue]
  cases hself : mentionsItself formula with
  | true => simp [isSyntaxError]
  | false =>
    cases hparse : parse (ledger.substitution.replace formula.toList) with
    | error error => simp [isSyntaxError]
    | ok tree =>
      have hvalue : isSyntaxError (tree.evaluate ledger.get?) = false := isSyntaxError_evaluate tree
      cases hevaluated : tree.evaluate ledger.get? with
      | error error => simpa [hevaluated] using hvalue
      | ok value =>
        by_cases hfinite : value.isFinite = true <;> simp [hevaluated, isSyntaxError, hfinite]

/-! ### Formulas with literals -/

variable {parts : List Part} {replacement : List Char → List Char}

/-- No more levels nest in a text, if it denotes anything at all. -/
def NestsWithin (levels : Nat) (text : List Char) : Prop :=
  ∀ more tree, DenotesWithin more text tree → ∃ other, DenotesWithin levels text other

/-- A formula with literals for names that stand apart denotes something just if the formula with
zeros does, where two levels are left. -/
theorem Detached.exists_denotesWithin_iff (hdetached : Detached none parts)
    (hliterals : WritesLiterals replacement parts)
    (hnests : NestsWithin levels (zeroed parts)) :
    (∃ tree, DenotesWithin (levels + 2) (written replacement parts) tree) ↔
      ∃ tree, DenotesWithin levels (zeroed parts) tree := by
  rcases hdetached.varies_or_unreadable hliterals with
    ⟨zeros, lexemes, hzeros, hlexemes, hvaries⟩ | ⟨hzeroed, hwritten⟩
  · constructor
    · rintro ⟨tree, hdenotes⟩
      obtain ⟨others, hothers, hderives⟩ := denotesWithin_iff.mp hdenotes
      obtain rfl := spells_unique hlexemes hothers
      obtain ⟨other, hother⟩ := hderives.exists_first hvaries
      exact hnests (levels + 2) other (denotesWithin_iff.mpr ⟨zeros, hzeros, hother⟩)
    · rintro ⟨tree, hdenotes⟩
      obtain ⟨others, hothers, hderives⟩ := denotesWithin_iff.mp hdenotes
      obtain rfl := spells_unique hzeros hothers
      obtain ⟨other, hother⟩ := hderives.exists_second hvaries
      exact ⟨other, denotesWithin_iff.mpr ⟨lexemes, hlexemes, hother⟩⟩
  · have hnone {text : List Char} (htext : ¬Readable text) (levels : Nat) :
        ¬∃ tree, DenotesWithin levels text tree := by
      rintro ⟨tree, hdenotes⟩
      obtain ⟨lexemes, hspells, _⟩ := denotesWithin_iff.mp hdenotes
      exact htext ⟨lexemes, hspells⟩
    exact iff_of_false (hnone hwritten _) (hnone hzeroed _)

/-! ### Formulas in ledgers -/

theorem Ledger.IsPlain.writesLiterals {ledger : Ledger} (hledger : ledger.IsPlain)
    (text : List Char) : WritesLiterals ledger.literalOf (ledger.parts text) := by
  intro name hname
  obtain ⟨value, hvalue⟩ := exists_value_of_mem_parts hname
  obtain ⟨hfinite, hzero⟩ := hledger _ value hvalue
  have hliteral : ledger.literalOf name = (Ledger.literal value).toList := by
    rw [literalOf, hvalue]
    rfl
  rw [hliteral]
  exact isPlainNumeral_literal hfinite hzero

/-- Whether a formula ends in a syntax error with the values of a ledger is seen from zeros in place
of its names. -/
theorem isSyntaxError_evaluateIn_iff_zeroed {ledger : Ledger} {formula : String}
    (hledger : ledger.IsPlain) (hdetached : Detached none (ledger.parts formula.toList))
    (hnests : NestsWithin (deepest - 2) (zeroed (ledger.parts formula.toList)))
    (settings : Settings) :
    isSyntaxError (evaluateIn settings ledger formula) = true ↔
      mentionsItself formula = false ∧
        ¬∃ tree, DenotesWithin (deepest - 2) (zeroed (ledger.parts formula.toList)) tree := by
  rw [isSyntaxError_evaluateIn_iff, ledger.replace_eq_written,
    ← hdetached.exists_denotesWithin_iff (hledger.writesLiterals formula.toList) hnests]
  rfl

/-- The evaluation of a formula ends with a syntax error for one ledger just if it does for another
one that knows the same words. The values are finite and not the negative zero, the names that are
replaced stand apart in the formula, and two levels less nest in it than are allowed. -/
theorem isSyntaxError_evaluateIn_congr {first second : Ledger} {formula : String}
    (hkeys : ∀ key, (first.get? key).isSome = (second.get? key).isSome)
    (hfirst : first.IsPlain) (hsecond : second.IsPlain)
    (hdetached : Detached none (first.parts formula.toList))
    (hnests : NestsWithin (deepest - 2) (zeroed (first.parts formula.toList)))
    (settings : Settings) :
    isSyntaxError (evaluateIn settings first formula) =
      isSyntaxError (evaluateIn settings second formula) := by
  have hparts := Ledger.parts_congr hkeys formula.toList
  rw [Bool.eq_iff_iff, isSyntaxError_evaluateIn_iff_zeroed hfirst hdetached hnests]
  rw [hparts] at hdetached hnests ⊢
  rw [isSyntaxError_evaluateIn_iff_zeroed hsecond hdetached hnests]

/-- A ledger that knows one word. -/
def knowing (key : String) (value : Float) : Ledger :=
  ⟨[⟨key, value, true⟩]⟩

theorem get?_knowing (key other : String) (value : Float) :
    (knowing key value).get? other = if key = other then some value else none := by
  by_cases hkey : key = other <;> simp [knowing, Ledger.get?, Ledger.entry?, hkey]

theorem isSome_get?_knowing (key other : String) (first second : Float) :
    ((knowing key first).get? other).isSome = ((knowing key second).get? other).isSome := by
  rw [get?_knowing, get?_knowing]
  split <;> rfl

theorem isPlain_knowing {value : Float} (hfinite : value.isFinite = true) (hzero : value ≠ -0.0)
    (key : String) : (knowing key value).IsPlain := by
  intro other found hvalue
  rw [get?_knowing] at hvalue
  split at hvalue
  · obtain rfl := Option.some.inj hvalue
    exact ⟨hfinite, hzero⟩
  · cases hvalue

/-- A power is read, whether its base is five or minus five. -/
theorem isSyntaxError_power :
    isSyntaxError (evaluateIn .standard (knowing "x" 5.0) "x ^ 2") =
      isSyntaxError (evaluateIn .standard (knowing "x" (-5.0)) "x ^ 2") := by
  have hparts : (knowing "x" 5.0).parts "x ^ 2".toList = .name ['x'] :: .character ' ' ::
      (['^'].map .character ++ .character ' ' :: (['2'].map .character ++ [])) := by
    decide +kernel
  have hdetached : Detached none ((knowing "x" 5.0).parts "x ^ 2".toList) := by
    have htwo : Reads ['2'] (.number (Numeral.mk ['2'] none none).value) [] :=
      @Reads.number ⟨['2'], none, none⟩ [] (by decide +kernel)
    rw [hparts]
    refine .name ['x'] (by simp) ⟨by decide +kernel, fun _ _ ↦ by decide +kernel,
      fun _ ↦ by decide +kernel⟩ (.space (by decide +kernel) ?_)
    exact .word (.mark rfl (by decide)) (.space (by decide +kernel) (.word htwo .nil))
  have hnests : NestsWithin (deepest - 2) (zeroed ((knowing "x" 5.0).parts "x ^ 2".toList)) := by
    intro _ _ _
    rw [hparts]
    have hpower : Derives .power 253 ([.number 0.0] ++ .mark .caret :: [.number 2.0])
        (.binary .power (.number 0.0) (.number 2.0)) :=
      .raise (.number 0.0) (.power (.primary (.number 2.0)))
    exact ⟨_, [⟨.number 0.0, 0⟩, ⟨.mark .caret, 2⟩, ⟨.number 2.0, 4⟩], by decide +kernel,
      .product (.unary (.power hpower))⟩
  exact isSyntaxError_evaluateIn_congr (isSome_get?_knowing "x" · 5.0 (-5.0))
    (isPlain_knowing (by decide +kernel) (by decide +kernel) "x")
    (isPlain_knowing (by decide +kernel) (by decide +kernel) "x") hdetached hnests .standard

theorem nestsWithin_number {text : List Char} (value : Float)
    (htokens : Token.ofText text = .ok [⟨.number value, 0⟩]) : NestsWithin (deepest - 2) text :=
  fun _ _ _ ↦ ⟨_, _, htokens, .product (.unary (.power (.primary (.number value))))⟩

/-- Nothing nests in two operands side by side, which denote nothing. -/
theorem nestsWithin_operands {text : List Char} {first second : Token}
    (htokens : Token.ofText text = .ok [first, second]) (hfirst : first.lexeme.isOperand = true)
    (hsecond : second.lexeme.isOperand = true) : NestsWithin (deepest - 2) text := by
  rintro more tree ⟨tokens, hother, hderives⟩
  obtain rfl := Except.ok.inj (htokens.symm.trans hother)
  have hadjoins : Adjoins first.lexeme second.lexeme := by simpa using hderives.isChain
  simp [Adjoins, hfirst, hsecond] at hadjoins

/-- A name behind a number stands apart. -/
theorem detached_behind_number : Detached none ((knowing "x" 5.0).parts "2 x".toList) := by
  have hparts : (knowing "x" 5.0).parts "2 x".toList =
      ['2'].map .character ++ .character ' ' :: .name ['x'] :: [] := by
    decide +kernel
  have htwo : Reads ['2'] (.number (Numeral.mk ['2'] none none).value) [' ', '0'] :=
    @Reads.number ⟨['2'], none, none⟩ [' ', '0'] (by decide +kernel)
  rw [hparts]
  refine .word htwo (.space (by decide +kernel) (.name ['x'] (by simp) ⟨?_, ?_, ?_⟩ .nil))
  · rfl
  · exact fun _ _ ↦ by decide +kernel
  · exact fun _ ↦ rfl

/-- The value of a name that does not stand apart makes the difference: behind a name, next to a
point and in an exponent. The negative zero, which has a sign and no parentheses, makes it even for
a name that stands apart: behind a number. -/
theorem isSyntaxError_differs :
    ((∀ key, ((knowing "x" 5.0).get? key).isSome = ((knowing "x" (-5.0)).get? key).isSome) ∧
      (knowing "x" 5.0).IsPlain ∧ (knowing "x" (-5.0)).IsPlain ∧
      ∀ formula ∈ ["max x", ".x", "x.5", "1e+x"],
        NestsWithin (deepest - 2) (zeroed ((knowing "x" 5.0).parts formula.toList)) ∧
          isSyntaxError (evaluateIn .standard (knowing "x" 5.0) formula) ≠
            isSyntaxError (evaluateIn .standard (knowing "x" (-5.0)) formula)) ∧
      (∀ key, ((knowing "x" 5.0).get? key).isSome = ((knowing "x" (-0.0)).get? key).isSome) ∧
      (-0.0 : Float).isFinite = true ∧ Detached none ((knowing "x" 5.0).parts "2 x".toList) ∧
      NestsWithin (deepest - 2) (zeroed ((knowing "x" 5.0).parts "2 x".toList)) ∧
      isSyntaxError (evaluateIn .standard (knowing "x" 5.0) "2 x") ≠
        isSyntaxError (evaluateIn .standard (knowing "x" (-0.0)) "2 x") := by
  have hzeroed : ∀ formula ∈ [("max x", "max 0"), (".x", ".0"), ("x.5", "0.5"), ("1e+x", "1e+0"),
      ("2 x", "2 0")],
      zeroed ((knowing "x" 5.0).parts formula.1.toList) = formula.2.toList := by
    decide +kernel
  have hdiffers : ∀ formula ∈ ["max x", ".x", "x.5", "1e+x"],
      isSyntaxError (evaluateIn .standard (knowing "x" 5.0) formula) ≠
        isSyntaxError (evaluateIn .standard (knowing "x" (-5.0)) formula) := by
    decide +kernel
  refine ⟨⟨(isSome_get?_knowing "x" · 5.0 (-5.0)),
    isPlain_knowing (by decide +kernel) (by decide +kernel) "x",
    isPlain_knowing (by decide +kernel) (by decide +kernel) "x", fun formula hformula ↦
      ⟨?_, hdiffers formula hformula⟩⟩, (isSome_get?_knowing "x" · 5.0 (-0.0)), by decide +kernel,
    detached_behind_number, ?_, by decide +kernel⟩
  · simp only [List.mem_cons, List.not_mem_nil, or_false] at hformula
    rcases hformula with rfl | rfl | rfl | rfl
    · rw [hzeroed ("max x", "max 0") (by simp)]
      exact @nestsWithin_operands _ ⟨.name "max", 0⟩ ⟨.number 0.0, 4⟩ (by decide +kernel) rfl rfl
    · rw [hzeroed (".x", ".0") (by simp)]
      exact nestsWithin_number 0.0 (by decide +kernel)
    · rw [hzeroed ("x.5", "0.5") (by simp)]
      exact nestsWithin_number 0.5 (by decide +kernel)
    · rw [hzeroed ("1e+x", "1e+0") (by simp)]
      exact nestsWithin_number 1.0 (by decide +kernel)
  · rw [hzeroed ("2 x", "2 0") (by simp)]
    exact @nestsWithin_operands _ ⟨.number 2.0, 0⟩ ⟨.number 0.0, 2⟩ (by decide +kernel) rfl rfl

end Formulary
