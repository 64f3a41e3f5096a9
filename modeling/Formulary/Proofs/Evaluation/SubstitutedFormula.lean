import Formulary.Proofs.Evaluation.Literals
import Formulary.Proofs.Formula.Names
import Formulary.Proofs.Ledger.Rules

/-!
# The text of a formula with values in it

For a formula in which words end where tokens do, writing the values of a ledger into its text gives
a text that spells the lexemes of the formula with the values of names in their places. The main
statement, `spells_replaceFrom`, follows the substitution through the text, word by word: numbers,
marks and names without a value are kept, and the literal of a value does not run into what stands
behind it.
-/

set_option autoImplicit false
set_option relaxedAutoImplicit false

namespace Formulary

open Formulary.Formula Formulary.Name Formulary.Number Formulary.Text

variable {rest : List Char} {lexemes : List Lexeme}

/-! ### What may stand behind an operand -/

theorem continuesNumeral_iff {character : Char} (hcontinues : continuesNumeral character = true) :
    isNameCharacter character = true ∨ character = '.' := by
  simp only [continuesNumeral, Bool.or_eq_true, beq_iff_eq] at hcontinues
  rcases hcontinues with ((hdigit | hpoint) | rfl) | rfl
  · exact Or.inl (digit_in_name hdigit).2
  · exact Or.inr hpoint
  · exact Or.inl (by decide)
  · exact Or.inl (by decide)

theorem not_continued {character? : Option Char} (hname : character?.any isNameCharacter = false)
    (hpoint : character? ≠ some '.') : character?.any continuesNumeral = false := by
  cases character? with
  | none => rfl
  | some character =>
    refine Bool.eq_false_iff.mpr fun hcontinues ↦ ?_
    rcases continuesNumeral_iff hcontinues with hother | rfl
    · exact Bool.false_ne_true (hname.symm.trans hother)
    · exact hpoint rfl

/-! ### Words that are kept -/

theorem unopened_digits {before : Option Char} {figures : List Char}
    (hfigures : figures.all isAsciiDigit = true) : Unopened before figures := by
  induction figures generalizing before with
  | nil => trivial
  | cons figure figures ih =>
    rw [List.all_cons, Bool.and_eq_true] at hfigures
    refine ⟨fun hstart ↦ ?_, ih hfigures.2⟩
    rw [isPlainStart_of_isAsciiDigit hfigures.1] at hstart
    cases hstart

theorem lastOr_digits (before : Option Char) {figures : List Char}
    (hfigures : figures.all isAsciiDigit = true) (hnonempty : figures ≠ []) :
    (lastOr before figures).any isPlainCharacter = true := by
  have hlast := List.all_eq_true.mp hfigures _ (List.getLast_mem hnonempty)
  rw [lastOr, List.getLast?_eq_some_getLast hnonempty]
  show isPlainCharacter (figures.getLast hnonempty) = true
  rw [isPlainCharacter, hlast, Bool.or_true]

theorem unopened_fraction {before : Option Char} {fraction : Option (List Char)}
    (hfraction : (fraction.getD []).all isAsciiDigit = true) :
    Unopened before (fractionCharacters fraction) := by
  cases fraction with
  | none => trivial
  | some figures => exact ⟨fun hstart ↦ absurd hstart (by decide), unopened_digits hfraction⟩

theorem unopened_exponent {before : Option Char} {exponent : Exponent}
    (hexponent : exponent.WellFormed) (hbefore : before.any isPlainCharacter = true) :
    Unopened before exponent.characters := by
  obtain ⟨_, hsign, hfigures, _⟩ := hexponent
  rw [Exponent.characters, List.cons_append]
  refine ⟨fun _ ↦ hbefore, unopened_append.mpr ⟨?_, unopened_digits hfigures⟩⟩
  cases hwritten : exponent.sign with
  | none => trivial
  | some sign =>
    refine ⟨fun hstart ↦ ?_, trivial⟩
    rcases hsign sign hwritten with rfl | rfl <;> exact absurd hstart (by decide)

/-- No identifier starts in a numeral whose exponent does not follow a point. -/
theorem unopened_characters (before : Option Char) {numeral : Numeral}
    (hnumeral : numeral.WellFormed) (hsmall : occursIn ['.', 'e'] numeral.characters = false)
    (hcapital : occursIn ['.', 'E'] numeral.characters = false) :
    Unopened before numeral.characters := by
  obtain ⟨whole, fraction, exponent⟩ := numeral
  obtain ⟨hwhole, hfraction, hnonempty, hexponent⟩ := hnumeral
  refine unopened_append.mpr ⟨unopened_append.mpr ⟨unopened_digits hwhole,
    unopened_fraction hfraction⟩, ?_⟩
  cases exponent with
  | none => trivial
  | some exponent =>
    refine unopened_exponent (hexponent exponent rfl) ?_
    rw [lastOr_append]
    match fraction with
    | none =>
      show (lastOr before whole).any isPlainCharacter = true
      exact lastOr_digits before hwhole (by simpa using hnonempty)
    | some (figure :: figures) =>
      rw [fractionCharacters, lastOr_cons]
      exact lastOr_digits _ hfraction (List.cons_ne_nil _ _)
    | some [] =>
      have hoccurs : occursIn ['.', exponent.letter]
          (Numeral.mk whole (some []) (some exponent)).characters = true :=
        (occursIn_iff _ _).mpr ⟨whole, exponent.sign.toList ++ exponent.figures, by
          simp [Numeral.characters, fractionCharacters, exponentCharacters, Exponent.characters]⟩
      rcases (hexponent exponent rfl).letter with hletter | hletter
      · rw [hletter, hsmall] at hoccurs
        cases hoccurs
      · rw [hletter, hcapital] at hoccurs
        cases hoccurs

/-! ### Formulas that can be substituted -/

/-- A formula whose words end where its tokens do: plain text without the prefix of functions in
which no exponent follows a point. -/
structure Substitutable (text : List Char) : Prop where
  ascii : ∀ character ∈ text, character.toNat < 128
  unprefixed : occursIn ['M', 'a', 't', 'h', '.'] text = false
  small : occursIn ['.', 'e'] text = false
  capital : occursIn ['.', 'E'] text = false

theorem occursIn_append {part front back : List Char}
    (hoccurs : occursIn part (front ++ back) = false) :
    occursIn part front = false ∧ occursIn part back = false := by
  constructor
  · refine Bool.eq_false_iff.mpr fun hfront ↦ ?_
    obtain ⟨before, after, rfl⟩ := (occursIn_iff part front).mp hfront
    have hwhole := (occursIn_iff part (before ++ part ++ after ++ back)).mpr
      ⟨before, after ++ back, by simp⟩
    exact Bool.false_ne_true (hoccurs.symm.trans hwhole)
  · refine Bool.eq_false_iff.mpr fun hback ↦ ?_
    obtain ⟨before, after, rfl⟩ := (occursIn_iff part back).mp hback
    have hwhole := (occursIn_iff part (front ++ (before ++ part ++ after))).mpr
      ⟨front ++ before, after, by simp⟩
    exact Bool.false_ne_true (hoccurs.symm.trans hwhole)

theorem Substitutable.append {front back : List Char} (htext : Substitutable (front ++ back)) :
    Substitutable front ∧ Substitutable back := by
  obtain ⟨hascii, hbegins, hsmall, hcapital⟩ := htext
  exact ⟨⟨fun character hfront ↦ hascii character (List.mem_append_left back hfront),
      (occursIn_append hbegins).1, (occursIn_append hsmall).1, (occursIn_append hcapital).1⟩,
    ⟨fun character hback ↦ hascii character (List.mem_append_right front hback),
      (occursIn_append hbegins).2, (occursIn_append hsmall).2, (occursIn_append hcapital).2⟩⟩

theorem Substitutable.of_cons {character : Char} {rest : List Char}
    (htext : Substitutable (character :: rest)) : Substitutable rest := by
  rw [← List.singleton_append] at htext
  exact htext.append.2

/-- A ledger whose words are identifiers and whose values are finite and not the negative zero. -/
structure Ledger.Substitutable (ledger : Ledger) : Prop where
  identifier : ∀ key value, ledger.get? key = some value → isIdentifier key.toList = true
  plain : ledger.IsPlain

variable {ledger : Ledger}

theorem substitutable_of_entries
    (hentries : ∀ entry ∈ ledger.entries,
      isIdentifier entry.key.toList = true ∧ entry.value.isFinite = true ∧ entry.value ≠ -0.0) :
    ledger.Substitutable := by
  have hentry : ∀ key value, ledger.get? key = some value →
      isIdentifier key.toList = true ∧ value.isFinite = true ∧ value ≠ -0.0 := by
    intro key value hvalue
    obtain ⟨entry, hfound, rfl⟩ := Option.map_eq_some_iff.mp hvalue
    obtain rfl : entry.key = key := by simpa using List.find?_some hfound
    exact hentries entry (List.mem_of_find?_eq_some hfound)
  exact ⟨fun key value hvalue ↦ (hentry key value hvalue).1,
    fun key value hvalue ↦ (hentry key value hvalue).2⟩

theorem isIdentifier_of_mem_rules
    (hkeys : ∀ key value, ledger.get? key = some value → isIdentifier key.toList = true) :
    ∀ rule ∈ ledger.substitution.rules, isIdentifier rule.name = true := by
  intro rule hrule
  obtain ⟨_, value, hvalue, _⟩ := Ledger.mem_substitution_rules_iff.mp hrule
  simpa using hkeys _ value hvalue

/-- A character outside names is kept. -/
theorem replaceFrom_cons_of_not_name (hledger : ledger.Substitutable) {before : Option Char}
    {character : Char} (hname : isNameCharacter character = false) (rest : List Char) :
    replaceFrom ledger.substitution.rules before 0 (character :: rest) =
      character :: replaceFrom ledger.substitution.rules (some character) 0 rest := by
  have hword : [character].any isNameCharacter = false := by simpa using hname
  have hrules := isIdentifier_of_mem_rules hledger.identifier
  exact replaceFrom_unopened hrules (unopened_of_no_name hword) rest

/-- What stands behind an operand is not replaced. -/
theorem head?_replaceFrom (hledger : ledger.Substitutable) (before : Option Char)
    (hrest : rest.head?.any isNameCharacter = false) :
    (replaceFrom ledger.substitution.rules before 0 rest).head? = rest.head? := by
  cases rest with
  | nil => rfl
  | cons character rest =>
    rw [replaceFrom_cons_of_not_name hledger hrest]
    rfl

theorem head?_literal_ne_star {value : Float} (hfinite : value.isFinite = true)
    (hzero : value ≠ -0.0) (rest : List Char) :
    ((Ledger.literal value).toList ++ rest).head? ≠ some '*' := by
  rcases isPlainNumeral_literal hfinite hzero with ⟨numeral, hnumeral, -, htext⟩ | ⟨_, -, htext⟩
  · obtain ⟨first, others, hfirst, hclass⟩ := hnumeral.exists_cons
    rw [htext, hfirst]
    rintro ⟨⟩
    exact absurd hclass (by decide)
  · rw [htext]
    simp

/-- No star comes up in front of a substituted text. -/
theorem head?_replaceFrom_ne_star (hledger : ledger.Substitutable) {before : Option Char}
    (hrest : rest.head? ≠ some '*') :
    (replaceFrom ledger.substitution.rules before 0 rest).head? ≠ some '*' := by
  cases rest with
  | nil => simp [replaceFrom]
  | cons character rest =>
    cases hfound : ledger.substitution.rules.find? fun rule ↦
        occursAt rule.name before (character :: rest) with
    | none =>
      rw [replaceFrom, hfound]
      exact hrest
    | some rule =>
      obtain ⟨_, value, hvalue, hreplacement⟩ :=
        Ledger.mem_substitution_rules_iff.mp (List.mem_of_find?_eq_some hfound)
      rw [replaceFrom, hfound]
      show (rule.replacement ++ _).head? ≠ some '*'
      rw [hreplacement]
      obtain ⟨hfinite, hzero⟩ := hledger.plain _ _ hvalue
      exact head?_literal_ne_star hfinite hzero _

/-! ### The substituted text, word by word -/

/-- The only identifier that stands at the front of a word is the word. -/
theorem eq_of_occursAt {before : Option Char} {name word : List Char}
    (hname : isIdentifier name = true) (hword : word.all isPlainCharacter = true)
    (hrest : rest.head?.any isWordCharacter = false)
    (hoccurs : occursAt name before (word ++ rest) = true) : name = word := by
  obtain ⟨behind, htext, _, hbehind⟩ :=
    (occursAt_iff (hasPlainEdges_of_isIdentifier hname) _).mp hoccurs
  rw [isIdentifier, Bool.and_eq_true] at hname
  calc name = (name ++ behind).takeWhile isPlainCharacter :=
        (takeWhile_run hname.2 (not_plain_of_not_word hbehind)).1.symm
    _ = (word ++ rest).takeWhile isPlainCharacter := by rw [htext]
    _ = word := (takeWhile_run hword (not_plain_of_not_word hrest)).1

theorem isWordCharacter_of_not_name {character : Char} (hascii : character.toNat < 128)
    (hname : isNameCharacter character = false) : isWordCharacter character = false := by
  rw [isWordCharacter_of_ascii _ hascii, ← isNameCharacter_of_ascii _ hascii, hname]

theorem head?_isWordCharacter (hascii : ∀ character ∈ rest, character.toNat < 128)
    (hname : rest.head?.any isNameCharacter = false) :
    rest.head?.any isWordCharacter = false := by
  cases rest with
  | nil => rfl
  | cons character rest => exact isWordCharacter_of_not_name (hascii _ List.mem_cons_self) hname

variable {before : Option Char}

theorem spells_number (hledger : ledger.Substitutable) {numeral : Numeral}
    (hscan : Numeral.scan (numeral.characters ++ rest) = some (numeral, rest))
    (hnumeral : Substitutable numeral.characters)
    (hname : rest.head?.any isNameCharacter = false) (hpoint : rest.head? ≠ some '.')
    (hreplaced : Spells (replaceFrom ledger.substitution.rules
      (lastOr before numeral.characters) 0 rest) lexemes) :
    Spells (replaceFrom ledger.substitution.rules before 0 (numeral.characters ++ rest))
      (.number numeral.value :: lexemes) := by
  have hformed := wellFormed_of_scan hscan
  rw [replaceFrom_unopened (isIdentifier_of_mem_rules hledger.identifier)
    (unopened_characters before hformed hnumeral.small hnumeral.capital)]
  refine .word (.number (scan_characters_append hformed ?_)) hreplaced
  rw [head?_replaceFrom hledger _ hname]
  exact not_continued hname hpoint

/-- A name that has a value is replaced by the literal of it. -/
theorem replaceFrom_value
    (hkeys : ∀ key value, ledger.get? key = some value → isIdentifier key.toList = true)
    {word : List Char} {value : Float} (hvalue : ledger.get? (String.ofList word) = some value)
    (hbefore : before.any isWordCharacter = false)
    (hrest : rest.head?.any isWordCharacter = false) :
    replaceFrom ledger.substitution.rules before 0 (word ++ rest) =
      (Ledger.literal value).toList ++
        replaceFrom ledger.substitution.rules (lastOr before word) 0 rest := by
  have hidentifier : isIdentifier word = true := by simpa using hkeys _ _ hvalue
  have hedges := hasPlainEdges_of_isIdentifier hidentifier
  have hplain : word.all isPlainCharacter = true := ((Bool.and_eq_true _ _).mp hidentifier).2
  have hblank := isBlank_of_hasPlainEdges hedges
  have hrule : Rule.mk word (Ledger.literal value).toList ∈ ledger.substitution.rules :=
    Ledger.mem_substitution_rules_iff.mpr ⟨hblank, value, hvalue, rfl⟩
  have hoccurs : occursAt word before (word ++ rest) = true :=
    (occursAt_iff hedges _).mpr ⟨rest, rfl, hbefore, hrest⟩
  have hfound : (ledger.substitution.rules.find? fun rule ↦
      occursAt rule.name before (word ++ rest)) = some ⟨word, (Ledger.literal value).toList⟩ := by
    refine find?_eq_some_iff.mpr ⟨hrule, hoccurs, fun other hother hstands ↦ Nat.le_of_eq ?_⟩
    exact congrArg List.length
      (eq_of_occursAt (isIdentifier_of_mem_rules hkeys other hother) hplain hrest hstands)
  exact replaceFrom_of_find? (ne_nil_of_hasPlainEdges hedges) hfound

theorem spells_value (hledger : ledger.Substitutable) {word : List Char} {value : Float}
    (hvalue : ledger.get? (String.ofList word) = some value)
    (hbefore : before.any isWordCharacter = false) (hrest : rest.head?.any isWordCharacter = false)
    (hname : rest.head?.any isNameCharacter = false) (hpoint : rest.head? ≠ some '.')
    (hreplaced : Spells (replaceFrom ledger.substitution.rules (lastOr before word) 0 rest)
      lexemes) :
    Spells (replaceFrom ledger.substitution.rules before 0 (word ++ rest))
      (Lexeme.ofValue value ++ lexemes) := by
  rw [replaceFrom_value hledger.identifier hvalue hbefore hrest]
  obtain ⟨hfinite, hzero⟩ := hledger.plain _ _ hvalue
  refine spells_literal hfinite hzero ?_ hreplaced
  rw [head?_replaceFrom hledger _ hname]
  exact not_continued hname hpoint

/-- A name that has no value is kept. -/
theorem spells_name (hledger : ledger.Substitutable) {first : Char} {others : List Char}
    (hstart : isNameStart first = true) (hplain : (first :: others).all isPlainCharacter = true)
    (hvalue : ledger.get? (String.ofList (first :: others)) = none)
    (hrest : rest.head?.any isWordCharacter = false)
    (hname : rest.head?.any isNameCharacter = false) (hpoint : rest.head? ≠ some '.')
    (hreplaced : Spells (replaceFrom ledger.substitution.rules
      (lastOr before (first :: others)) 0 rest) lexemes) :
    Spells (replaceFrom ledger.substitution.rules before 0 (first :: others ++ rest))
      (.name (String.ofList (first :: others)) :: lexemes) := by
  have hrules := isIdentifier_of_mem_rules hledger.identifier
  have hnone : ∀ rule ∈ ledger.substitution.rules,
      occursAt rule.name before (first :: others ++ rest) = false := by
    intro rule hrule
    refine Bool.eq_false_iff.mpr fun hoccurs ↦ ?_
    obtain ⟨_, value, hsome, _⟩ := Ledger.mem_substitution_rules_iff.mp hrule
    rw [eq_of_occursAt (hrules rule hrule) hplain hrest hoccurs, hvalue] at hsome
    cases hsome
  rw [List.all_cons, Bool.and_eq_true] at hplain
  rw [lastOr_cons] at hreplaced
  rw [List.cons_append] at hnone ⊢
  have hunopened : Unopened (some first) others := unopened_of_plain hplain.2 hplain.1
  rw [replaceFrom_of_none hnone, replaceFrom_unopened hrules hunopened]
  have hletters : others.all isNameCharacter = true := by
    rw [List.all_eq_true] at hplain ⊢
    exact fun character hcharacter ↦
      (classes_of_isPlainCharacter (hplain.2 character hcharacter)).1
  have hhead := head?_replaceFrom hledger (lastOr (some first) others) hname
  refine .word (.name hstart hletters ?_ ?_) hreplaced
  · rw [hhead, hname]
  · rw [hhead]
    exact fun hbegins ↦ hpoint hbegins.2

/-- The text of a formula with the values of a ledger in it spells the lexemes of the formula with
the values of names in their places. -/
theorem spells_replaceFrom (hledger : ledger.Substitutable) {text : List Char}
    (hspells : Spells text lexemes) (htext : Substitutable text)
    (hchain : lexemes.IsChain Adjoins)
    (hboundary : before.any isWordCharacter = false ∨ text.head?.any isWordCharacter = false) :
    Spells (replaceFrom ledger.substitution.rules before 0 text)
      (lexemes.flatMap (Lexeme.withValues ledger.get?)) := by
  induction hspells generalizing before with
  | nil => exact .nil
  | @space character rest lexemes hwhite hrest ih =>
    have hname := isNameCharacter_of_isWhiteSpace hwhite
    have hother := isWordCharacter_of_not_name (htext.ascii _ List.mem_cons_self) hname
    rw [replaceFrom_cons_of_not_name hledger hname]
    exact .space hwhite (ih htext.of_cons hchain (Or.inl hother))
  | @word word rest lexeme lexemes hreads hrest ih =>
    obtain ⟨hword, hbehind⟩ := htext.append
    have hlater := hchain.of_cons
    rw [List.flatMap_cons]
    cases hreads with
    | number hscan =>
      obtain ⟨hname, hpoint⟩ := head?_of_no_operand hrest (no_operand_of_isChain hchain rfl)
      have hother := head?_isWordCharacter hbehind.ascii hname
      exact spells_number hledger hscan hword hname hpoint (ih hbehind hlater (Or.inr hother))
    | @name first others _ hstart hothers _ _ =>
      obtain ⟨hname, hpoint⟩ := head?_of_no_operand hrest (no_operand_of_isChain hchain rfl)
      have hother := head?_isWordCharacter hbehind.ascii hname
      have hplain : (first :: others).all isPlainCharacter = true :=
        all_isPlainCharacter hword.ascii (by simp [hothers, isNameCharacter_of_isNameStart hstart])
      have hreplaced := @ih (lastOr before (first :: others)) hbehind hlater (Or.inr hother)
      rw [Lexeme.withValues]
      cases hvalue : ledger.get? (String.ofList (first :: others)) with
      | none => exact spells_name hledger hstart hplain hvalue hother hname hpoint hreplaced
      | some value =>
        have hplainFirst := List.all_eq_true.mp hplain first List.mem_cons_self
        have hfirst := (classes_of_isPlainCharacter hplainFirst).2
        have hbefore := hboundary.resolve_right fun hhead ↦
          Bool.false_ne_true (hhead.symm.trans hfirst)
        exact spells_value hledger hvalue hbefore hother hname hpoint hreplaced
    | @function word _ _ _ _ =>
      have hoccurs : occursIn ['M', 'a', 't', 'h', '.'] (functionPrefix ++ '.' :: word) = true :=
        (occursIn_iff _ _).mpr ⟨[], word, rfl⟩
      exact absurd (hword.unprefixed.symm.trans hoccurs) Bool.false_ne_true
    | power =>
      have hstar : isNameCharacter '*' = false := by decide
      rw [List.cons_append, replaceFrom_cons_of_not_name hledger hstar, List.cons_append,
        replaceFrom_cons_of_not_name hledger hstar]
      exact .word .power (ih hbehind hlater (Or.inl (by decide)))
    | @mark character mark _ hmark hdouble =>
      obtain ⟨hascii, hname, _, _⟩ := classes_of_markOf? hmark
      have hother := isWordCharacter_of_not_name hascii hname
      rw [List.singleton_append, replaceFrom_cons_of_not_name hledger hname]
      refine .word (.mark hmark fun hdoubled ↦ ?_) (ih hbehind hlater (Or.inl hother))
      exact head?_replaceFrom_ne_star hledger (fun hstar ↦ hdouble ⟨hdoubled.1, hstar⟩) hdoubled.2

end Formulary
