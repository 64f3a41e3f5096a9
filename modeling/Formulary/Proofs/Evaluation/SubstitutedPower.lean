import Formulary.Proofs.Evaluation.EvaluationByLookup
import Formulary.Proofs.Evaluation.UnusedName
import Formulary.Proofs.Ledger.Keys

/-!
# A value under a power

The value of a name is written into a formula as an operand that nothing around it splits. The
strictest case is the base of a power, where a sign would belong to the whole power:
`parse_replaced_power_iff` says that the base is the value, bit for bit, and the exponent what it
was, unless the value is the negative zero. That one is not less than zero and so has no parentheses
around its sign, and no power starts with a sign, `Derives.sign?_head?_of_power`.
-/

set_option autoImplicit false
set_option relaxedAutoImplicit false

namespace Formulary.Formula

open Formulary.Text

variable {text rest : List Char} {lexemes : List Lexeme}

/-! ### Signs and powers -/

theorem Spells.head?_of_minus (hspells : Spells ('-' :: rest) lexemes) :
    lexemes.head? = some (.mark .minus) := by
  generalize htext : '-' :: rest = text at hspells
  cases hspells with
  | nil => cases htext
  | space hwhite _ =>
    obtain ⟨rfl, -⟩ := List.cons.inj htext
    exact absurd hwhite (by decide)
  | @word word behind lexeme lexemes hreads _ =>
    have hminus : Reads ['-'] (.mark .minus) rest := .mark rfl (by simp)
    have hscan := scanLexeme_of_reads hreads
    rw [← htext, ← List.singleton_append, scanLexeme_of_reads hminus] at hscan
    obtain ⟨rfl, -⟩ := Prod.mk.inj (Except.ok.inj hscan)
    rfl

/-- No power starts with a sign. -/
theorem Derives.sign?_head?_of_power {category : Category} {nesting : Nat}
    {base exponent : Expression}
    (hderives : Derives category nesting lexemes (.binary .power base exponent)) :
    ∀ first ∈ lexemes.head?, sign? first = none := by
  generalize htree : Expression.binary .power base exponent = tree at hderives
  induction hderives with
  | product _ ih | unary _ ih | power _ ih => exact ih htree
  | add hjoins _ _ _ _ | multiply hjoins _ _ _ _ => cases hjoins <;> cases htree
  | sign _ _ _ => cases htree
  | primary hprimary _ =>
    obtain ⟨first, rest, rfl, -, hsign⟩ := hprimary.exists_cons
    rintro _ ⟨⟩
    exact hsign (Or.inr rfl)
  | raise hbase _ _ _ =>
    obtain ⟨first, rest, rfl, -, hsign⟩ := hbase.exists_cons
    rintro _ ⟨⟩
    exact hsign (Or.inr rfl)
  | number _ | name _ | call _ _ _ _ => cases htree
  | group _ _ =>
    rintro _ ⟨⟩
    rfl

end Formulary.Formula

namespace Formulary

open Formulary.Formula Formulary.Name Formulary.Number Formulary.Text

variable {ledger : Ledger} {name : String} {value : Float} {text : List Char}
  {lexemes : List Lexeme} {tree : Expression}

/-! ### The text of the power -/

/-- With the values of a ledger in it, a power of a name is the power of the literal of its value,
if no word of the ledger stands in the exponent. -/
theorem replace_power
    (hkeys : ∀ key other, ledger.get? key = some other → isIdentifier key.toList = true)
    (hvalue : ledger.get? name = some value)
    (hunused : ∀ key other, ledger.get? key = some other → ¬StandsAsWord key.toList text) :
    ledger.substitution.replace (name.toList ++ ([' ', '^', ' '] ++ text)) =
      (Ledger.literal value).toList ++ ([' ', '^', ' '] ++ text) := by
  have hrules := isIdentifier_of_mem_rules hkeys
  have hgap : [' ', '^', ' '].any isNameCharacter = false := by decide
  have hspace : ([' ', '^', ' '] ++ text).head?.any isWordCharacter = false :=
    (by decide : isWordCharacter ' ' = false)
  have hkept (before : Option Char) :
      replaceFrom ledger.substitution.rules before 0 ([' ', '^', ' '] ++ text) =
        [' ', '^', ' '] ++ text := by
    refine replaceFrom_of_not_occurs fun rule hrule hoccurs ↦ ?_
    have hname := hrules rule hrule
    obtain ⟨-, other, hother, -⟩ := Ledger.mem_substitution_rules_iff.mp hrule
    have hnone := hunused _ other hother
    rw [String.toList_ofList] at hnone
    refine hnone ?_
    exact (hoccurs.of_unopened hname (unopened_of_no_name hgap)).standsAsWord
      (hasPlainEdges_of_isIdentifier hname)
  rw [Substitution.replace, replaceFrom_value hkeys (by rwa [String.ofList_toList]) rfl hspace,
    hkept]

theorem get?_insert_empty_iff (hname : isIdentifier name.toList = true)
    (hfinite : value.isFinite = true) {key : String} {other : Float} :
    (Ledger.empty.insert name value).get? key = some other ↔ name = key ∧ value = other := by
  have hnone : Ledger.empty.get? key = none := rfl
  rw [Ledger.get?_insert hfinite, hnone, Option.none_or]
  constructor
  · intro hvalue
    split at hvalue
    · rename_i hkey
      exact ⟨hkey.1, Option.some.inj hvalue⟩
    · cases hvalue
  · rintro ⟨rfl, rfl⟩
    refine if_pos ⟨rfl, ?_⟩
    rintro rfl
    cases hname

/-- With its value in place of a name, a power of the name is the power of the literal. -/
theorem replace_power_insert (hname : isIdentifier name.toList = true)
    (hfinite : value.isFinite = true) {exponent : String}
    (hunused : ¬StandsAsWord name.toList exponent.toList) :
    (Ledger.empty.insert name value).substitution.replace (name ++ " ^ " ++ exponent).toList =
      (Ledger.literal value).toList ++ ([' ', '^', ' '] ++ exponent.toList) := by
  have honly {key : String} {other : Float}
      (hother : (Ledger.empty.insert name value).get? key = some other) : name = key :=
    ((get?_insert_empty_iff hname hfinite).mp hother).1
  have htext : (name ++ " ^ " ++ exponent).toList =
      name.toList ++ ([' ', '^', ' '] ++ exponent.toList) := by
    simp
  rw [htext]
  exact replace_power (fun key other hother ↦ honly hother ▸ hname)
    ((get?_insert_empty_iff hname hfinite).mpr ⟨rfl, rfl⟩)
    fun key other hother ↦ honly hother ▸ hunused

/-- The power of the literal of a value spells the power of the value. -/
theorem spells_literal_power (hfinite : value.isFinite = true) (hzero : value ≠ -0.0)
    (hspells : Spells text lexemes) :
    Spells ((Ledger.literal value).toList ++ ([' ', '^', ' '] ++ text))
      (Lexeme.ofValue value ++ .mark .caret :: lexemes) :=
  spells_literal hfinite hzero (by decide : continuesNumeral ' ' = false)
    (.space (by decide) (.mark rfl (by decide) (.space (by decide) hspells)))

/-! ### The tree of the power -/

/-- A text that can be an exponent in a formula and denotes a tree. -/
def DenotesExponent (text : List Char) (tree : Expression) : Prop :=
  ∃ tokens, Token.ofText text = .ok tokens ∧
    Derives .unary (deepest - 1) (tokens.map Token.lexeme) tree

/-- A value under a power is not split, unless it is the negative zero: with the value in place of
the name, the base of the power is the value, bit for bit, and the exponent is what it was. The
value is finite, and the exponent does not use the name: either the name does not stand in it, or
the exponent is legible and its tree neither reads nor calls the name, which is not the prefix of
functions. -/
theorem parse_replaced_power_iff {exponent : String} (hname : isIdentifier name.toList = true)
    (hfinite : value.isFinite = true) (hexponent : DenotesExponent exponent.toList tree)
    (hunused : ¬StandsAsWord name.toList exponent.toList ∨
      Legible exponent.toList ∧ name.toList ≠ functionPrefix ∧
        name ∉ tree.names ∧ name ∉ tree.functions) :
    (∃ base,
      parse ((Ledger.empty.insert name value).substitution.replace
        (name ++ " ^ " ++ exponent).toList) = .ok (.binary .power base tree) ∧
      ∀ lookUp, base.evaluate lookUp = .ok value) ↔ value ≠ -0.0 := by
  have hexcluded : ¬StandsAsWord name.toList exponent.toList := by
    rcases hunused with hother | ⟨hlegible, hmath, hread, hcalled⟩
    · exact hother
    · obtain ⟨tokens, htokens, hderives⟩ := hexponent
      exact not_standsAsWord_of_unused (spells_iff_ofText.mpr ⟨tokens, htokens, rfl⟩) hderives
        hlegible hname hmath hread hcalled
  rw [replace_power_insert hname hfinite hexcluded]
  constructor
  · rintro ⟨base, hparse, -⟩ rfl
    have hliteral : (Ledger.literal (-0.0)).toList = ['-', '0'] := by decide +kernel
    obtain ⟨lexemes, hspells, hderives⟩ :=
      denotesWithin_iff.mp (parse_eq_ok_iff_denotesWithin.mp hparse)
    rw [hliteral] at hspells
    cases hderives.sign?_head?_of_power _ hspells.head?_of_minus
  · intro hzero
    obtain ⟨tokens, htokens, hderives⟩ := hexponent
    have hspells := spells_literal_power hfinite hzero
      (spells_iff_ofText.mpr ⟨tokens, htokens, rfl⟩)
    have hpower : Derives .sum deepest
        (Lexeme.ofValue value ++ .mark .caret :: tokens.map Token.lexeme)
        (.binary .power (Expression.ofValue value) tree) :=
      .product (.unary (.power (.raise (derives_ofValue value (deepest - 3)) hderives)))
    exact ⟨Expression.ofValue value,
      parse_eq_ok_iff_denotesWithin.mpr (denotesWithin_iff.mpr ⟨_, hspells, hpower⟩),
      fun lookUp ↦ evaluate_ofValue hfinite⟩

/-- The square of a negative value. -/
theorem parse_square_of_negative :
    isIdentifier "x".toList = true ∧ (-3.0 : Float).isFinite = true ∧
      DenotesExponent "2".toList (.number 2.0) ∧ Legible "2".toList ∧
      "x".toList ≠ functionPrefix ∧ "x" ∉ (Expression.number 2.0).names ∧
      "x" ∉ (Expression.number 2.0).functions ∧
      ∃ base,
        parse ((Ledger.empty.insert "x" (-3.0)).substitution.replace
          ("x" ++ " ^ " ++ "2").toList) = .ok (.binary .power base (.number 2.0)) ∧
        ∀ lookUp, base.evaluate lookUp = .ok (-3.0) := by
  have hname : isIdentifier "x".toList = true := by decide +kernel
  have hfinite : (-3.0 : Float).isFinite = true := by decide +kernel
  have htokens : Token.ofText "2".toList = .ok [⟨.number 2.0, 0⟩] := by decide +kernel
  have hexponent : DenotesExponent "2".toList (.number 2.0) :=
    ⟨_, htokens, .power (.primary (.number 2.0))⟩
  have hlegible : Legible "2".toList :=
    ⟨isAscii_of_all (by decide +kernel), by decide +kernel, by decide +kernel⟩
  have hmath : "x".toList ≠ functionPrefix := by decide +kernel
  have hread : "x" ∉ (Expression.number 2.0).names := by simp [Expression.names]
  have hcalled : "x" ∉ (Expression.number 2.0).functions := by simp [Expression.functions]
  have hzero : (-3.0 : Float) ≠ -0.0 := by decide +kernel
  exact ⟨hname, hfinite, hexponent, hlegible, hmath, hread, hcalled,
    (parse_replaced_power_iff hname hfinite hexponent
      (Or.inr ⟨hlegible, hmath, hread, hcalled⟩)).mpr hzero⟩

/-- The sign of the negative zero belongs to the whole power. -/
theorem parse_square_of_negative_zero :
    isIdentifier "x".toList = true ∧ (-0.0 : Float).isFinite = true ∧
      DenotesExponent "2".toList (.number 2.0) ∧ ¬StandsAsWord "x".toList "2".toList ∧
      parse ((Ledger.empty.insert "x" (-0.0)).substitution.replace
        ("x" ++ " ^ " ++ "2").toList) =
          .ok (.signed .negative (.binary .power (.number 0.0) (.number 2.0))) ∧
      ¬∃ base,
        parse ((Ledger.empty.insert "x" (-0.0)).substitution.replace
          ("x" ++ " ^ " ++ "2").toList) = .ok (.binary .power base (.number 2.0)) ∧
        ∀ lookUp, base.evaluate lookUp = .ok (-0.0) := by
  have htokens : Token.ofText "2".toList = .ok [⟨.number 2.0, 0⟩] := by decide +kernel
  have hother : 'x' ∉ "2".toList := by decide +kernel
  have hunused : ¬StandsAsWord "x".toList "2".toList :=
    not_standsAsWord_of_not_mem (by decide +kernel) hother
  have htext : (Ledger.empty.insert "x" (-0.0)).substitution.replace
      ("x" ++ " ^ " ++ "2").toList = "-0 ^ 2".toList := by decide +kernel
  have hwritten : Token.ofText "-0 ^ 2".toList =
      .ok [⟨.mark .minus, 0⟩, ⟨.number 0.0, 1⟩, ⟨.mark .caret, 3⟩, ⟨.number 2.0, 5⟩] := by
    decide +kernel
  have hderives : Derives .sum deepest
      [.mark .minus, .number 0.0, .mark .caret, .number 2.0]
      (.signed .negative (.binary .power (.number 0.0) (.number 2.0))) :=
    .product (.unary (.sign .minus (.power (@Derives.raise _ [_] _ _ _ (.number 0.0)
      (.power (.primary (.number 2.0)))))))
  have hparse := DenotesWithin.parse_eq_ok ⟨_, hwritten, hderives⟩ le_rfl
  rw [htext, hparse]
  refine ⟨by decide +kernel, by decide +kernel, ⟨_, htokens, .power (.primary (.number 2.0))⟩,
    hunused, rfl, ?_⟩
  rintro ⟨base, hbase, -⟩
  cases hbase

end Formulary
