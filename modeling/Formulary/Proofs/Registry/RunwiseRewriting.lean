import Formulary.Proofs.Name.IdentifierText
import Formulary.Proofs.Registry.Rules

/-!
# Rewriting a formula run by run

The substitution of a solution searches a formula for all registered names at once. In a formula of
the solution itself it does no more than write the identifier of each candidate run in its place:
reserved words, runs that hold separators only and runs directly behind a digit are kept, and so is
every character outside of the runs. Which shorter names occur in a run does not matter. The result
is a fixed point. Both are the main statement, `withIdentifiers_eq_normalizedFrom`.

The step of the proof is one piece of the formula, `replaceFrom_run`: a registered name starts with
a letter or an underscore, so it can only start inside a run, and it does not reach beyond the end
of the run.
-/

set_option autoImplicit false
set_option relaxedAutoImplicit false

namespace Formulary.Name

open Formulary.Text

/-! ### The expected text -/

/-- Whether a run behind `before` is kept: a word of the formula language, a run without an
identifier, or one directly behind a digit. -/
def isKept (before : Option Char) (word : List Char) : Bool :=
  reservedWords.contains (String.ofList word) || (identifierCharacters word).isEmpty ||
    before.any isAsciiDigit

/-- What a piece behind `before` becomes when the identifiers of the runs are written. -/
def Piece.normalized (before : Option Char) : Piece → List Char
  | .other character => [character]
  | .run word => if isKept before word then word else identifierCharacters word

/-- The text of some pieces behind `before` with the identifiers of the runs. -/
def normalizedFrom : Option Char → List Piece → List Char
  | _, [] => []
  | before, piece :: others =>
    piece.normalized before ++ normalizedFrom (lastOr before piece.characters) others

/-- Whether a piece has no white space in it, if it is a run. -/
def Piece.isUnbroken : Piece → Bool
  | .other _ => true
  | .run word => word.all isPlainCharacter

/-- Whether no run of several words stands directly behind a digit. -/
def digitsApart : Option Char → List Piece → Bool
  | _, [] => true
  | before, piece :: others =>
    (!before.any isAsciiDigit || piece.isUnbroken) &&
      digitsApart (lastOr before piece.characters) others

variable {before : Option Char} {word rest text : List Char} {cut : List Piece} {rules : List Rule}

theorem isKept_eq_false_iff : isKept before word = false ↔
    String.ofList word ∉ reservedWords ∧ identifierCharacters word ≠ [] ∧
      before.any isAsciiDigit = false := by
  rw [isKept, Bool.or_eq_false_iff, Bool.or_eq_false_iff, and_assoc, List.isEmpty_eq_false_iff,
    ← Bool.not_eq_true, List.contains_iff_mem]

theorem digitsApart_cons (piece : Piece) (others : List Piece) :
    digitsApart before (piece :: others) = true ↔
      (before.any isAsciiDigit = true → piece.isUnbroken = true) ∧
        digitsApart (lastOr before piece.characters) others = true := by
  rw [digitsApart, Bool.and_eq_true, Bool.or_eq_true, Bool.not_eq_true', ← Bool.not_eq_true,
    ← imp_iff_not_or]

/-- Normalizing does not change where a run ends. -/
theorem endsRun_normalizedFrom (hcut : Dissects cut text) (hends : EndsRun text) :
    EndsRun (normalizedFrom before cut) := by
  induction hcut generalizing before with
  | nil => exact endsRun_nil
  | @other character others rest _ _ ih =>
    show EndsRun (character :: normalizedFrom _ others)
    cases hwhite : isWhiteSpace character with
    | true =>
      exact (endsRun_cons_of_white hwhite).mpr (ih ((endsRun_cons_of_white hwhite).mp hends))
    | false =>
      exact (endsRun_cons_of_not_white hwhite).mpr ((endsRun_cons_of_not_white hwhite).mp hends)
  | @run word others rest hrun _ _ _ =>
    obtain ⟨_, hlast, hclean⟩ := isRun_iff.mp hrun
    exact absurd hends (not_endsRun_of_clean hclean hlast)

/-- Normalizing ASCII text gives ASCII text. -/
theorem isAscii_normalizedFrom (hcut : Dissects cut text)
    (hascii : ∀ character ∈ text, character.toNat < 128) :
    ∀ character ∈ normalizedFrom before cut, character.toNat < 128 := by
  induction hcut generalizing before with
  | nil => exact fun _ hmember ↦ absurd hmember List.not_mem_nil
  | @other character others rest _ _ ih =>
    exact List.forall_mem_cons.mpr ⟨hascii character List.mem_cons_self,
      ih fun other hother ↦ hascii other (List.mem_cons_of_mem character hother)⟩
  | @run word others rest hrun _ _ ih =>
    refine List.forall_mem_append.mpr ⟨?_,
      ih fun other hother ↦ hascii other (List.mem_append_right word hother)⟩
    intro character hcharacter
    rw [Piece.normalized] at hcharacter
    split at hcharacter
    · exact hascii character (List.mem_append_left rest hcharacter)
    · have hclean := (isRun_iff.mp hrun).2.2
      exact isAscii_of_isPlainCharacter (all_plain_identifierCharacters hclean character hcharacter)

/-! ### Rules for runs -/

/-- Rules that write identifiers, none of them empty, in place of runs. -/
structure Identifying (rules : List Rule) : Prop where
  runs : ∀ rule ∈ rules, isRun rule.name = true
  nonempty : ∀ rule ∈ rules, identifierCharacters rule.name ≠ []
  replacements : ∀ rule ∈ rules, rule.replacement = identifierCharacters rule.name

theorem Identifying.opens (hrules : Identifying rules) :
    ∀ rule ∈ rules, hasPlainEdges rule.name = true ∧ rule.name.head?.any isPlainStart = true :=
  fun rule hrule ↦ ⟨hasPlainEdges_of_isRun (hrules.runs rule hrule),
    (isRun_iff.mp (hrules.runs rule hrule)).1⟩

/-- A registered name that stands where a run goes on does not reach beyond the end of the run. -/
theorem Identifying.prefix_of_occursAt (hrules : Identifying rules) {rule : Rule}
    (hrule : rule ∈ rules) (hends : EndsRun rest)
    (hoccurs : occursAt rule.name before (word ++ rest) = true) : rule.name <+: word := by
  obtain ⟨_, hlast, hclean⟩ := isRun_iff.mp (hrules.runs rule hrule)
  exact prefix_of_endsRun hclean hlast hends (Name.prefix_of_occursAt hoccurs)

/-- A character that starts no run is kept. -/
theorem Identifying.replaceFrom_other (hrules : Identifying rules) {character : Char}
    (hstart : isPlainStart character = false) (rest : List Char) :
    replaceFrom rules before 0 (character :: rest) =
      character :: replaceFrom rules (some character) 0 rest :=
  replaceFrom_of_none fun rule hrule ↦ not_occursAt_of_unopened (hrules.opens rule hrule).1
    (hrules.opens rule hrule).2 fun h ↦ absurd (hstart.symm.trans h) Bool.false_ne_true

/-! ### Runs that are kept -/

/-- A word at no position of which a name stands is kept. -/
theorem replaceFrom_of_absent
    (habsent : ∀ done left, word = done ++ left → left ≠ [] → ∀ rule ∈ rules,
      occursAt rule.name (lastOr before done) (left ++ rest) = false) :
    replaceFrom rules before 0 (word ++ rest) =
      word ++ replaceFrom rules (lastOr before word) 0 rest := by
  induction word generalizing before with
  | nil => rfl
  | cons character word ih =>
    have hhere : ∀ rule ∈ rules, occursAt rule.name before (character :: (word ++ rest)) = false :=
      habsent [] (character :: word) rfl (List.cons_ne_nil character word)
    have hlater : ∀ done left, word = done ++ left → left ≠ [] → ∀ rule ∈ rules,
        occursAt rule.name (lastOr (some character) done) (left ++ rest) = false := by
      intro done left hword
      have hlonger := habsent (character :: done) left (by rw [hword, List.cons_append])
      rwa [lastOr_cons] at hlonger
    rw [List.cons_append, replaceFrom_of_none hhere, ih hlater, lastOr_cons, List.cons_append]

/-- A run of separators is kept: any name in it would have no identifier. -/
theorem replaceFrom_of_separators (hrules : Identifying rules) (hends : EndsRun rest)
    (hword : identifierCharacters word = []) :
    replaceFrom rules before 0 (word ++ rest) =
      word ++ replaceFrom rules (lastOr before word) 0 rest := by
  refine replaceFrom_of_absent fun done left hsplit _ rule hrule ↦ ?_
  refine Bool.eq_false_iff.mpr fun hoccurs ↦ hrules.nonempty rule hrule ?_
  have hwithin := hrules.prefix_of_occursAt hrule hends hoccurs
  rw [identifierCharacters_eq_nil_iff] at hword ⊢
  refine fun character hcharacter ↦ hword character ?_
  rw [hsplit]
  exact List.mem_append_right done (hwithin.subset hcharacter)

/-- A plain word that is its own identifier is kept: the only name that can stand in it is the word
itself. -/
theorem replaceFrom_of_identifier (hrules : Identifying rules) (hends : EndsRun rest)
    (hnonempty : word ≠ []) (hplain : word.all isPlainCharacter = true)
    (hword : identifierCharacters word = word) :
    replaceFrom rules before 0 (word ++ rest) =
      word ++ replaceFrom rules (lastOr before word) 0 rest := by
  obtain ⟨first, others, rfl⟩ := List.exists_cons_of_ne_nil hnonempty
  cases hfound : rules.find? fun rule ↦ occursAt rule.name before (first :: others ++ rest) with
  | none =>
    have hnone : ∀ rule ∈ rules, occursAt rule.name before (first :: (others ++ rest)) = false := by
      simpa [List.find?_eq_none] using hfound
    rw [List.all_cons, Bool.and_eq_true] at hplain
    have hunopened : Unopened (some first) others := unopened_of_plain hplain.2 hplain.1
    rw [List.cons_append, replaceFrom_of_none hnone, replaceFrom_of_unopened hrules.opens hunopened,
      lastOr_cons, List.cons_append]
  | some rule =>
    have hrule := List.mem_of_find?_eq_some hfound
    have hoccurs : occursAt rule.name before (first :: others ++ rest) = true := by
      simpa using List.find?_some hfound
    have hname : rule.name = first :: others := by
      obtain ⟨more, hmore⟩ := hrules.prefix_of_occursAt hrule hends hoccurs
      obtain ⟨behind, hbehind, _, hafter⟩ := (occursAt_iff (hrules.opens rule hrule).1 _).mp hoccurs
      rw [← hmore, List.append_assoc] at hbehind
      obtain rfl := List.append_cancel_left hbehind
      rw [← hmore, List.all_append, Bool.and_eq_true] at hplain
      cases more with
      | nil => rw [← hmore, List.append_nil]
      | cons next more =>
        rw [List.all_cons, Bool.and_eq_true] at hplain
        have hother : isWordCharacter next = false := hafter
        rw [(classes_of_isPlainCharacter hplain.2.1).2] at hother
        cases hother
    obtain ⟨name, replacement⟩ := rule
    obtain rfl : name = first :: others := hname
    have hreplacement := hrules.replacements _ hrule
    rw [hword] at hreplacement
    rw [replaceFrom_of_find? hnonempty hfound]
    exact congrArg (· ++ _) hreplacement

theorem plain_of_digit (hdigit : before.any isAsciiDigit = true) :
    before.any isPlainCharacter = true := by
  refine any_imp (fun character _ hclass ↦ ?_) hdigit
  rw [isPlainCharacter, hclass, Bool.or_true]

/-- A run that is to be kept is kept, if it is a single word or not directly behind a digit. -/
theorem replaceFrom_of_kept (hrules : Identifying rules) (hends : EndsRun rest)
    (hkept : isKept before word = true)
    (hapart : before.any isAsciiDigit = true → word.all isPlainCharacter = true) :
    replaceFrom rules before 0 (word ++ rest) =
      word ++ replaceFrom rules (lastOr before word) 0 rest := by
  rw [isKept, Bool.or_eq_true, Bool.or_eq_true] at hkept
  rcases hkept with (hreserved | hempty) | hdigit
  · obtain ⟨hself, hplain, hnonempty⟩ := identifierCharacters_of_mem_reservedWords
      (List.contains_iff_mem.mp hreserved)
    rw [String.toList_ofList] at hself hplain hnonempty
    exact replaceFrom_of_identifier hrules hends hnonempty hplain hself
  · exact replaceFrom_of_separators hrules hends (List.isEmpty_iff.mp hempty)
  · exact replaceFrom_of_unopened hrules.opens
      (unopened_of_plain (hapart hdigit) (plain_of_digit hdigit)) rest

/-! ### Runs that are replaced -/

/-- A run that is registered is replaced as a whole: it is the longest name that stands there. -/
theorem replaceFrom_of_registered {pairs : List (String × String)}
    (hrules : Identifying (Substitution.ofPairs pairs).rules) (hrun : isRun word = true)
    (hends : EndsRun rest) (hbefore : before.any isWordCharacter = false)
    (hafter : rest.head?.any isWordCharacter = false)
    (hregistered : ⟨word, identifierCharacters word⟩ ∈ (Substitution.ofPairs pairs).rules) :
    replaceFrom (Substitution.ofPairs pairs).rules before 0 (word ++ rest) =
      identifierCharacters word ++
        replaceFrom (Substitution.ofPairs pairs).rules (lastOr before word) 0 rest := by
  have hedges := hasPlainEdges_of_isRun hrun
  refine replaceFrom_of_find? (ne_nil_of_hasPlainEdges hedges) (find?_eq_some_iff.mpr ?_)
  refine ⟨hregistered, (occursAt_iff hedges _).mpr ⟨rest, rfl, hbefore, hafter⟩, ?_⟩
  exact fun other hother hoccurs ↦ (hrules.prefix_of_occursAt hother hends hoccurs).length_le

/-! ### All pieces -/

/-- Where a run stands first, no letter and no underscore precedes it. -/
def Clear (before : Option Char) (cut : List Piece) : Prop :=
  ∀ word others, cut = .run word :: others → before.any isPlainStart = false

theorem clear_of_endsRun (hcut : Dissects cut text) (hends : EndsRun text) : Clear before cut := by
  rintro word others rfl
  cases hcut with
  | run hrun _ _ =>
    obtain ⟨_, hlast, hclean⟩ := isRun_iff.mp hrun
    exact absurd hends (not_endsRun_of_clean hclean hlast)

theorem not_plain_of_clear {others : List Piece} (hclear : Clear before (.run word :: others))
    (hdigit : before.any isAsciiDigit = false) : before.any isPlainCharacter = false := by
  have hstart := hclear word others rfl
  cases before with
  | none => rfl
  | some character =>
    have hother : isPlainStart character = false := hstart
    have hfigure : isAsciiDigit character = false := hdigit
    show isPlainCharacter character = false
    rw [isPlainCharacter, hother, hfigure, Bool.or_false]

/-- A run that the substitution knows, or that is to be kept, is written as expected. -/
theorem replaceFrom_run {pairs : List (String × String)} {others : List Piece}
    (hrules : Identifying (Substitution.ofPairs pairs).rules) (hrun : isRun word = true)
    (hends : EndsRun rest) (hclear : Clear before (.run word :: others))
    (hbefore : ∀ character ∈ before, character.toNat < 128)
    (hascii : ∀ character ∈ word ++ rest, character.toNat < 128)
    (hapart : before.any isAsciiDigit = true → word.all isPlainCharacter = true)
    (hregistered : isKept before word = false →
      ⟨word, identifierCharacters word⟩ ∈ (Substitution.ofPairs pairs).rules) :
    replaceFrom (Substitution.ofPairs pairs).rules before 0 (word ++ rest) =
      (Piece.run word).normalized before ++
        replaceFrom (Substitution.ofPairs pairs).rules (lastOr before word) 0 rest := by
  rw [Piece.normalized]
  split
  · rename_i hkept
    exact replaceFrom_of_kept hrules hends hkept hapart
  · rename_i hkept
    have hreplaced : isKept before word = false := Bool.eq_false_iff.mpr hkept
    have hopens := not_plain_of_clear hclear (isKept_eq_false_iff.mp hreplaced).2.2
    have hnext : ∀ character ∈ rest.head?, character.toNat < 128 := fun character hcharacter ↦
      hascii character (List.mem_append_right word (List.mem_of_head? hcharacter))
    exact replaceFrom_of_registered hrules hrun hends (classes_of_not_plain hbefore hopens).2
      (classes_of_not_plain hnext hends.head?).2 (hregistered hreplaced)

theorem isAscii_of_lastOr (hbefore : ∀ character ∈ before, character.toNat < 128)
    (hascii : ∀ character ∈ word ++ rest, character.toNat < 128) :
    ∀ character ∈ lastOr before word, character.toNat < 128 := by
  intro character hcharacter
  rcases Option.or_eq_some_iff.mp hcharacter with hword | ⟨_, hearlier⟩
  · exact hascii character (List.mem_append_left rest (List.mem_of_getLast? hword))
  · exact hbefore character hearlier

/-- A substitution that knows every run writes the text of the pieces with identifiers. -/
theorem replaceFrom_eq_normalizedFrom {pairs : List (String × String)}
    (hrules : Identifying (Substitution.ofPairs pairs).rules) (hcut : Dissects cut text)
    (hclear : Clear before cut) (hbefore : ∀ character ∈ before, character.toNat < 128)
    (hascii : ∀ character ∈ text, character.toNat < 128)
    (hapart : digitsApart before cut = true)
    (hregistered : ∀ word before, .run word ∈ cut → isKept before word = false →
      ⟨word, identifierCharacters word⟩ ∈ (Substitution.ofPairs pairs).rules) :
    replaceFrom (Substitution.ofPairs pairs).rules before 0 text = normalizedFrom before cut := by
  induction hcut generalizing before with
  | nil => rfl
  | @other character others rest hstart _ ih =>
    rw [digitsApart_cons] at hapart
    rw [hrules.replaceFrom_other hstart]
    refine congrArg (character :: ·) (ih (fun _ _ _ ↦ hstart) ?_ ?_ hapart.2 ?_)
    · rintro other ⟨⟩
      exact hascii character List.mem_cons_self
    · exact fun other hother ↦ hascii other (List.mem_cons_of_mem character hother)
    · exact fun word before hword ↦ hregistered word before (List.mem_cons_of_mem _ hword)
  | @run word others rest hrun hends hothers ih =>
    rw [digitsApart_cons] at hapart
    rw [replaceFrom_run hrules hrun hends hclear hbefore hascii hapart.1
      (hregistered word before List.mem_cons_self)]
    refine congrArg (_ ++ ·) (ih (clear_of_endsRun hothers hends)
      (isAscii_of_lastOr hbefore hascii) ?_ hapart.2 ?_)
    · exact fun character hcharacter ↦ hascii character (List.mem_append_right word hcharacter)
    · exact fun other before hother ↦ hregistered other before (List.mem_cons_of_mem _ hother)

/-- The text of the pieces with identifiers is a fixed point of every such substitution. -/
theorem replaceFrom_normalizedFrom (hrules : Identifying rules) (hcut : Dissects cut text)
    {other : Option Char} (hsame : ∀ word others, cut = .run word :: others → other = before)
    (hapart : digitsApart before cut = true) :
    replaceFrom rules other 0 (normalizedFrom before cut) = normalizedFrom before cut := by
  induction hcut generalizing before other with
  | nil => rfl
  | @other character others rest hstart _ ih =>
    rw [digitsApart_cons] at hapart
    show replaceFrom rules other 0 (character :: normalizedFrom (some character) others) =
      character :: normalizedFrom (some character) others
    rw [hrules.replaceFrom_other hstart]
    exact congrArg (character :: ·) (ih (fun _ _ _ ↦ rfl) hapart.2)
  | @run word others rest hrun hends hothers ih =>
    obtain rfl := hsame word others rfl
    rw [digitsApart_cons] at hapart
    have hbehind : EndsRun (normalizedFrom (lastOr other word) others) :=
      endsRun_normalizedFrom hothers hends
    -- no run follows a run directly, so the character in front of the next piece does not matter
    have hrest (last : Option Char) : replaceFrom rules last 0
        (normalizedFrom (lastOr other word) others) =
          normalizedFrom (lastOr other word) others := by
      refine ih (fun next nexts hnext ↦ ?_) hapart.2
      subst hnext
      cases hothers with
      | run hnextRun _ _ =>
        obtain ⟨_, hlast, hclean⟩ := isRun_iff.mp hnextRun
        exact absurd hends (not_endsRun_of_clean hclean hlast)
    show replaceFrom rules other 0
      ((Piece.run word).normalized other ++ normalizedFrom (lastOr other word) others) =
        (Piece.run word).normalized other ++ normalizedFrom (lastOr other word) others
    rw [Piece.normalized]
    split
    · rename_i hkept
      rw [replaceFrom_of_kept hrules hbehind hkept hapart.1, hrest]
    · rename_i hkept
      have hnonempty := (isKept_eq_false_iff.mp (Bool.eq_false_iff.mpr hkept)).2.1
      have hplain := List.all_eq_true.mpr (all_plain_identifierCharacters (isRun_iff.mp hrun).2.2)
      rw [replaceFrom_of_identifier hrules hbehind hnonempty hplain
        (identifierCharacters_idem word), hrest]

end Formulary.Name

namespace Formulary

open Formulary.Name Formulary.Text

/-! ### Formulas of a solution -/

/-- A formula of a parameter or of a calculation of a solution, as it is recorded. -/
def Solution.HasFormula (solution : Solution) (formula : String) : Prop :=
  (∃ parameter ∈ solution.parameters, parameter.formula = some formula) ∨
    ∃ calculation ∈ solution.calculations, calculation.formula = formula

variable {solution : Solution} {formula : String} {word : List Char}

/-- The runs of a formula of a solution are candidates of the solution, except for the reserved
words. -/
theorem Solution.HasFormula.mem_registeredNames (hformula : solution.HasFormula formula)
    (hword : word ∈ runs formula.toList) (hfree : String.ofList word ∉ reservedWords) :
    String.ofList word ∈ solution.registeredNames [] := by
  have hsome : trim formula.toList ≠ [] := by
    intro hblank
    rw [← runs_trim, hblank] at hword
    cases hword
  have htrimmed : trimmedText formula = some (String.ofList (trim formula.toList)) := by
    rw [trimmedText, if_neg (by simpa using hsome)]
  have hlisted : String.ofList (trim formula.toList) ∈ solution.formulas := by
    rw [Solution.formulas, List.mem_append, List.mem_filterMap, List.mem_filterMap]
    rcases hformula with ⟨parameter, hparameter, hrecorded⟩ | ⟨calculation, hcalculation, rfl⟩
    · refine Or.inl ⟨parameter, hparameter, ?_⟩
      rw [Parameter.formulaText, hrecorded]
      exact htrimmed
    · exact Or.inr ⟨calculation, hcalculation, htrimmed⟩
  have hcandidate : String.ofList word ∈ candidates (String.ofList (trim formula.toList)) [] := by
    rw [candidates, String.toList_ofList, runs_trim, List.mem_filter]
    refine ⟨List.mem_map_of_mem hword, ?_⟩
    simpa using hfree
  exact List.mem_append_right _ (List.mem_flatMap_of_mem hlisted hcandidate)

/-- Where the declared names of a solution are runs, its rules write identifiers for runs. -/
theorem identifying_registry (hnames : ∀ name ∈ solution.declaredNames, isRun name.toList = true) :
    Identifying (solution.registry []).substitution.rules := by
  constructor
  · intro rule hrule
    obtain ⟨hregistered, _, _⟩ := Solution.mem_registry_rules_iff.mp hrule
    rcases List.mem_append.mp hregistered with hdeclared | hfound
    · simpa using hnames _ hdeclared
    · obtain ⟨text, _, hcandidate⟩ := List.mem_flatMap.mp hfound
      obtain ⟨run, hrun, hname⟩ := List.mem_map.mp (List.mem_filter.mp hcandidate).1
      rw [String.ofList_inj.mp hname] at hrun
      exact isRun_of_mem_runs hrun
  · exact fun rule hrule ↦ (Solution.mem_registry_rules_iff.mp hrule).2.2.1
  · exact fun rule hrule ↦ (Solution.mem_registry_rules_iff.mp hrule).2.2.2

/-- A solution has a rule for each run of its formulas that is not to be kept. -/
theorem Solution.HasFormula.mem_rules (hformula : solution.HasFormula formula)
    {before : Option Char} (hword : word ∈ runs formula.toList)
    (hkept : isKept before word = false) :
    ⟨word, identifierCharacters word⟩ ∈ (solution.registry []).substitution.rules := by
  obtain ⟨hfree, hidentifier, _⟩ := isKept_eq_false_iff.mp hkept
  exact Solution.mem_registry_rules_iff.mpr ⟨hformula.mem_registeredNames hword hfree,
    isBlank_of_identifierCharacters_ne_nil hidentifier, hidentifier, rfl⟩

/-- A formula of a solution is cut into its candidate runs and the characters between them; its text
with identifiers has the identifier of each run in its place, unless the run is a reserved word, has
no identifier or stands directly behind a digit. Writing identifiers again changes nothing. -/
theorem withIdentifiers_eq_normalizedFrom
    (hnames : ∀ name ∈ solution.declaredNames, isRun name.toList = true)
    (hformula : solution.HasFormula formula)
    (hascii : ∀ character ∈ formula.toList, character.toNat < 128)
    (hapart : digitsApart none (pieces formula.toList) = true) :
    (pieces formula.toList).flatMap Piece.characters = formula.toList ∧
      (pieces formula.toList).filterMap Piece.run? = runs formula.toList ∧
      ((solution.registry []).withIdentifiers formula).toList =
        normalizedFrom none (pieces formula.toList) ∧
      (solution.registry []).withIdentifiers ((solution.registry []).withIdentifiers formula) =
        (solution.registry []).withIdentifiers formula := by
  have hcut := dissects_pieces formula.toList
  have honce : ((solution.registry []).withIdentifiers formula).toList =
      normalizedFrom none (pieces formula.toList) := by
    rw [Registry.withIdentifiers, Substitution.apply, String.toList_ofList]
    exact replaceFrom_eq_normalizedFrom (identifying_registry hnames) hcut (fun _ _ _ ↦ rfl)
      (fun _ hnone ↦ absurd hnone (Option.not_mem_none _)) hascii hapart
      fun word before hword hkept ↦ hformula.mem_rules (mem_runs_of_mem_pieces hword) hkept
  refine ⟨characters_of_dissects hcut, (runs_eq_of_dissects hcut).symm, honce, ?_⟩
  have htwice : (solution.registry []).substitution.replace
      (normalizedFrom none (pieces formula.toList)) =
        normalizedFrom none (pieces formula.toList) :=
    replaceFrom_normalizedFrom (identifying_registry hnames) hcut (fun _ _ _ ↦ rfl) hapart
  refine String.toList_inj.mp ?_
  rw [honce, Registry.withIdentifiers, Substitution.apply, String.toList_ofList, honce, htwice]

/-- A price and its discounts; the first formula holds a name within a longer one, a run behind a
digit, a reserved word and a run without an identifier. -/
def discounts : Solution where
  parameters := [{ id := "price", name := "List Price" }, { id := "list", name := "List" }]
  calculations := [
    { id := "sale", name := "Sale", formula := "List Price * 2x - max(Sale  Tax, _ _) / List" }]

/-- The longer name wins over the shorter one in it, and the other special runs are kept. -/
theorem withIdentifiers_discounts :
    (discounts.registry []).withIdentifiers "List Price * 2x - max(Sale  Tax, _ _) / List" =
      "List_Price * 2x - max(Sale_Tax, _ _) / List" := by
  have hrewritten := @withIdentifiers_eq_normalizedFrom discounts
    "List Price * 2x - max(Sale  Tax, _ _) / List" (by decide +kernel)
    (Or.inr ⟨_, List.mem_singleton_self _, rfl⟩) (isAscii_of_all (by decide +kernel))
    (by decide +kernel)
  refine String.toList_inj.mp (hrewritten.2.2.1.trans ?_)
  decide +kernel

end Formulary
