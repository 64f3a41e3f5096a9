import Formulary.Name.Substitution

/-!
# What a substitution replaces

A rule is applied where its name stands and no longer name of a rule does, `find?_eq_some_iff`. So
what a substitution makes of a text depends only on the rules whose names stand somewhere in it,
which is `replaceFrom_congr` with `find?_congr`. `Replaces` is the result of a substitution step by
step, for proofs by induction on it.
-/

set_option autoImplicit false
set_option relaxedAutoImplicit false

namespace Formulary.Name

open Formulary.Text

/-! ### The order of the rules -/

theorem notAfter_cons {character other : Char} {rest others : List Char} :
    notAfter (character :: rest) (other :: others) = true ↔
      character < other ∨ character = other ∧ notAfter rest others = true := by
  simp only [notAfter, Bool.or_eq_true, Bool.and_eq_true, decide_eq_true_eq, beq_iff_eq]

theorem notAfter_total (first second : List Char) :
    notAfter first second = true ∨ notAfter second first = true := by
  induction first generalizing second with
  | nil => exact Or.inl (by rw [notAfter])
  | cons character rest ih =>
    cases second with
    | nil => exact Or.inr (by rw [notAfter])
    | cons other others =>
      rw [notAfter_cons, notAfter_cons]
      by_cases hless : character < other
      · exact Or.inl (Or.inl hless)
      · by_cases hgreater : other < character
        · exact Or.inr (Or.inl hgreater)
        · obtain rfl := Char.le_antisymm (Char.not_lt.mp hgreater) (Char.not_lt.mp hless)
          exact (ih others).imp (fun horder ↦ Or.inr ⟨rfl, horder⟩)
            (fun horder ↦ Or.inr ⟨rfl, horder⟩)

theorem notAfter_trans {first second third : List Char} (hfirst : notAfter first second = true)
    (hsecond : notAfter second third = true) : notAfter first third = true := by
  induction first generalizing second third with
  | nil => rw [notAfter]
  | cons character rest ih =>
    cases second with
    | nil => simp [notAfter] at hfirst
    | cons other others =>
      cases third with
      | nil => simp [notAfter] at hsecond
      | cons last lasts =>
        rw [notAfter_cons] at hfirst hsecond ⊢
        rcases hfirst with hless | ⟨rfl, horder⟩
        · rcases hsecond with hthen | ⟨rfl, _⟩
          · exact Or.inl (Char.lt_trans hless hthen)
          · exact Or.inl hless
        · exact hsecond.imp_right fun hthen ↦ ⟨hthen.1, ih horder hthen.2⟩

theorem longerFirst_iff (first second : List Char) :
    longerFirst first second = true ↔ utf8Length second < utf8Length first ∨
      utf8Length first = utf8Length second ∧ notAfter first second = true := by
  simp only [longerFirst, Bool.or_eq_true, Bool.and_eq_true, decide_eq_true_eq, beq_iff_eq]

theorem longerFirst_total (first second : List Char) :
    longerFirst first second = true ∨ longerFirst second first = true := by
  rw [longerFirst_iff, longerFirst_iff]
  rcases Nat.lt_trichotomy (utf8Length first) (utf8Length second) with hless | hsame | hmore
  · exact Or.inr (Or.inl hless)
  · exact (notAfter_total first second).imp (fun horder ↦ Or.inr ⟨hsame, horder⟩)
      (fun horder ↦ Or.inr ⟨hsame.symm, horder⟩)
  · exact Or.inl (Or.inl hmore)

theorem longerFirst_trans {first second third : List Char}
    (hfirst : longerFirst first second = true) (hsecond : longerFirst second third = true) :
    longerFirst first third = true := by
  rw [longerFirst_iff] at hfirst hsecond ⊢
  rcases hfirst with hfirst | ⟨hfirst, horder⟩ <;> rcases hsecond with hsecond | ⟨hsecond, hthen⟩
  · exact Or.inl (Nat.lt_trans hsecond hfirst)
  · exact Or.inl (hsecond ▸ hfirst)
  · exact Or.inl (hfirst ▸ hsecond)
  · exact Or.inr ⟨hfirst.trans hsecond, notAfter_trans horder hthen⟩

/-- A longer beginning of a text takes more bytes. -/
theorem utf8Length_lt_of_prefix {first second text : List Char} (hfirst : first <+: text)
    (hsecond : second <+: text) (hshorter : first.length < second.length) :
    utf8Length first < utf8Length second := by
  obtain ⟨rest, rfl⟩ := List.prefix_of_prefix_length_le hfirst hsecond (Nat.le_of_lt hshorter)
  clear hfirst hsecond
  induction first with
  | nil =>
    cases rest with
    | nil => simp at hshorter
    | cons character rest =>
      have hsize := character.utf8Size_pos
      simp only [List.nil_append, utf8Length]
      omega
  | cons character first ih =>
    have hrest : first.length < (first ++ rest).length := Nat.lt_of_succ_lt_succ hshorter
    simp only [List.cons_append, utf8Length]
    exact Nat.add_lt_add_left (ih hrest) _

/-! ### The rules of a substitution -/

variable {pairs : List (String × String)} {rule : Rule} {before : Option Char} {text : List Char}

/-- The rules are the pairs with names that are not blank, of several pairs with one name the first
one. -/
theorem mem_distinctRules_iff : rule ∈ distinctRules pairs ↔
    isBlank rule.name = false ∧
      pairs.lookup (String.ofList rule.name) = some (String.ofList rule.replacement) := by
  induction pairs with
  | nil => simp [distinctRules]
  | cons pair rest ih =>
    obtain ⟨name, replacement⟩ := pair
    rw [distinctRules, List.lookup_cons]
    by_cases hsame : rule.name = name.toList
    · have hname : (String.ofList rule.name == name) = true := by
        rw [hsame, String.ofList_toList, beq_self_eq_true]
      rw [hname]
      by_cases hblank : isBlank name.toList = true
      · rw [if_pos hblank, ih, hsame, hblank]
        simp
      · obtain ⟨ruleName, ruleReplacement⟩ := rule
        obtain rfl : ruleName = name.toList := hsame
        rw [if_neg hblank]
        simp [hblank, String.ext_iff, eq_comm]
    · have hname : (String.ofList rule.name == name) = false := by
        refine beq_eq_false_iff_ne.mpr fun h ↦ hsame ?_
        rw [← h, String.toList_ofList]
      have hrule : rule ≠ ⟨name.toList, replacement.toList⟩ := fun h ↦ hsame (congrArg Rule.name h)
      rw [hname]
      split
      · exact ih
      · simp [hrule, hsame, ih]

theorem mem_rules_iff : rule ∈ (Substitution.ofPairs pairs).rules ↔
    isBlank rule.name = false ∧
      pairs.lookup (String.ofList rule.name) = some (String.ofList rule.replacement) := by
  rw [← mem_distinctRules_iff]
  exact (arranged_perm _ _).mem_iff

/-- One name has one rule. -/
theorem eq_of_mem_rules {other : Rule} (hrule : rule ∈ (Substitution.ofPairs pairs).rules)
    (hother : other ∈ (Substitution.ofPairs pairs).rules) (hname : rule.name = other.name) :
    rule = other := by
  obtain ⟨name, replacement⟩ := rule
  obtain ⟨otherName, otherReplacement⟩ := other
  obtain rfl : name = otherName := hname
  have hsame := (mem_rules_iff.mp hrule).2.symm.trans (mem_rules_iff.mp hother).2
  simpa [String.ext_iff] using hsame

theorem pairwise_rules (pairs : List (String × String)) :
    (Substitution.ofPairs pairs).rules.Pairwise fun first second ↦
      longerFirst first.name second.name = true :=
  arranged_pairwise (fun (first second : Rule) ↦ longerFirst_total first.name second.name)
    (fun _ _ _ ↦ longerFirst_trans) _

/-! ### The rule that is applied -/

theorem prefix_of_occursAt {name : List Char} (hoccurs : occursAt name before text = true) :
    name <+: text := by
  simp only [occursAt, Bool.and_eq_true] at hoccurs
  exact List.isPrefixOf_iff_prefix.mp hoccurs.1.1

/-- No rule whose name stands at the front is longer than the one that is found. -/
theorem length_le_of_find? {other : Rule}
    (hfound : ((Substitution.ofPairs pairs).rules.find? fun rule ↦ occursAt rule.name before text) =
      some rule)
    (hother : other ∈ (Substitution.ofPairs pairs).rules)
    (hoccurs : occursAt other.name before text = true) :
    other.name.length ≤ rule.name.length := by
  obtain ⟨hrule, earlier, later, hrules, hearlier⟩ := List.find?_eq_some_iff_append.mp hfound
  have hpairwise := pairwise_rules pairs
  rw [hrules] at hother hpairwise
  rcases List.mem_append.mp hother with hbefore | hafter
  · have hnone := hearlier other hbefore
    rw [hoccurs] at hnone
    cases hnone
  · rcases List.mem_cons.mp hafter with rfl | hafter
    · exact Nat.le_refl _
    · have horder := (List.pairwise_cons.mp (List.pairwise_append.mp hpairwise).2.1).1 other hafter
      refine Nat.le_of_not_lt fun hlonger ↦ ?_
      have hbytes :=
        utf8Length_lt_of_prefix (prefix_of_occursAt hrule) (prefix_of_occursAt hoccurs) hlonger
      rcases (longerFirst_iff _ _).mp horder with hless | ⟨hsame, _⟩ <;> omega

/-- The rule that is applied has a name that stands at the front, the longest of those that do. -/
theorem find?_eq_some_iff :
    ((Substitution.ofPairs pairs).rules.find? fun rule ↦ occursAt rule.name before text) =
        some rule ↔
      rule ∈ (Substitution.ofPairs pairs).rules ∧ occursAt rule.name before text = true ∧
        ∀ other ∈ (Substitution.ofPairs pairs).rules, occursAt other.name before text = true →
          other.name.length ≤ rule.name.length := by
  constructor
  · intro hfound
    have hoccurs : occursAt rule.name before text = true := by simpa using List.find?_some hfound
    exact ⟨List.mem_of_find?_eq_some hfound, hoccurs, fun _ ↦ length_le_of_find? hfound⟩
  · rintro ⟨hrule, hoccurs, hlongest⟩
    have hsome : ((Substitution.ofPairs pairs).rules.find? fun rule ↦
        occursAt rule.name before text).isSome = true :=
      List.find?_isSome.mpr ⟨rule, hrule, hoccurs⟩
    obtain ⟨found, hfound⟩ := Option.isSome_iff_exists.mp hsome
    have hmember := List.mem_of_find?_eq_some hfound
    have hstands : occursAt found.name before text = true := by simpa using List.find?_some hfound
    have hlength : found.name.length = rule.name.length :=
      Nat.le_antisymm (hlongest found hmember hstands) (length_le_of_find? hfound hrule hoccurs)
    have hname : found.name = rule.name := by
      have hbegins := List.prefix_of_prefix_length_le (prefix_of_occursAt hstands)
        (prefix_of_occursAt hoccurs) (Nat.le_of_eq hlength)
      exact hbegins.eq_of_length hlength
    rw [hfound, eq_of_mem_rules hmember hrule hname]

/-- Two substitutions apply the same rule where the same rules have names that stand there. -/
theorem find?_congr {others : List (String × String)}
    (hsame : ∀ rule : Rule, occursAt rule.name before text = true →
      (rule ∈ (Substitution.ofPairs pairs).rules ↔ rule ∈ (Substitution.ofPairs others).rules)) :
    ((Substitution.ofPairs pairs).rules.find? fun rule ↦ occursAt rule.name before text) =
      (Substitution.ofPairs others).rules.find? fun rule ↦ occursAt rule.name before text := by
  ext rule
  rw [find?_eq_some_iff, find?_eq_some_iff]
  constructor
  · rintro ⟨hrule, hoccurs, hlongest⟩
    exact ⟨(hsame rule hoccurs).mp hrule, hoccurs,
      fun other hother hstands ↦ hlongest other ((hsame other hstands).mpr hother) hstands⟩
  · rintro ⟨hrule, hoccurs, hlongest⟩
    exact ⟨(hsame rule hoccurs).mpr hrule, hoccurs,
      fun other hother hstands ↦ hlongest other ((hsame other hstands).mp hother) hstands⟩

/-! ### The substituted text -/

/-- The character that the next one follows, behind a word that follows `before`. -/
def lastOr (before : Option Char) (word : List Char) : Option Char :=
  word.getLast?.or before

@[simp] theorem lastOr_nil (before : Option Char) : lastOr before [] = before := rfl

@[simp] theorem lastOr_cons (before : Option Char) (character : Char) (word : List Char) :
    lastOr before (character :: word) = lastOr (some character) word := by
  cases word with
  | nil => rfl
  | cons second rest =>
    obtain ⟨last, hlast⟩ : ∃ last, (second :: rest).getLast? = some last :=
      ⟨_, List.getLast?_eq_some_getLast (List.cons_ne_nil second rest)⟩
    rw [lastOr, lastOr, List.getLast?_cons_cons, hlast]
    rfl

@[simp] theorem lastOr_append (before : Option Char) (front back : List Char) :
    lastOr before (front ++ back) = lastOr (lastOr before front) back := by
  induction front generalizing before with
  | nil => rfl
  | cons character front ih => rw [List.cons_append, lastOr_cons, lastOr_cons, ih]

theorem lastOr_of_ne_nil {word : List Char} (hword : word ≠ []) (before other : Option Char) :
    lastOr before word = lastOr other word := by
  obtain ⟨character, rest, rfl⟩ := List.exists_cons_of_ne_nil hword
  rw [lastOr_cons, lastOr_cons]

variable {rules : List Rule}

/-- What a replaced name takes up is passed over. -/
theorem replaceFrom_skip (before : Option Char) (word rest : List Char) :
    replaceFrom rules before word.length (word ++ rest) =
      replaceFrom rules (lastOr before word) 0 rest := by
  induction word generalizing before with
  | nil => rfl
  | cons character word ih => rw [List.cons_append, List.length_cons, replaceFrom, ih, lastOr_cons]

theorem replaceFrom_of_find? {name replacement rest : List Char} (hnonempty : name ≠ [])
    (hfound : (rules.find? fun rule ↦ occursAt rule.name before (name ++ rest)) =
      some ⟨name, replacement⟩) :
    replaceFrom rules before 0 (name ++ rest) =
      replacement ++ replaceFrom rules (lastOr before name) 0 rest := by
  obtain ⟨character, word, rfl⟩ := List.exists_cons_of_ne_nil hnonempty
  rw [List.cons_append] at hfound
  rw [List.cons_append, replaceFrom, hfound, lastOr_cons, ← replaceFrom_skip]
  rfl

theorem replaceFrom_of_none {character : Char} {rest : List Char}
    (hnone : ∀ rule ∈ rules, occursAt rule.name before (character :: rest) = false) :
    replaceFrom rules before 0 (character :: rest) =
      character :: replaceFrom rules (some character) 0 rest := by
  have hfound : (rules.find? fun rule ↦ occursAt rule.name before (character :: rest)) = none := by
    simpa [List.find?_eq_none] using hnone
  rw [replaceFrom, hfound]

/-- What is made of a text depends only on the rules that apply where the text goes on. -/
theorem replaceFrom_congr {others : List Rule} {before : Option Char} {skipped : Nat}
    {text : List Char}
    (hsame : ∀ done rest, text = done ++ rest →
      (rules.find? fun rule ↦ occursAt rule.name (lastOr before done) rest) =
        others.find? fun rule ↦ occursAt rule.name (lastOr before done) rest) :
    replaceFrom rules before skipped text = replaceFrom others before skipped text := by
  induction text generalizing before skipped with
  | nil => cases skipped <;> rfl
  | cons character text ih =>
    have hrest : ∀ done rest, text = done ++ rest →
        (rules.find? fun rule ↦ occursAt rule.name (lastOr (some character) done) rest) =
          others.find? fun rule ↦ occursAt rule.name (lastOr (some character) done) rest := by
      intro done rest htext
      have hlonger := hsame (character :: done) rest (by rw [htext, List.cons_append])
      rwa [lastOr_cons] at hlonger
    cases skipped with
    | succ skipped => exact ih hrest
    | zero =>
      have hhere := hsame [] (character :: text) rfl
      rw [lastOr_nil] at hhere
      simp only [replaceFrom, hhere, ih hrest]

/-! ### Step by step -/

/-- A text behind `before` is made into a result, one character or one name at a time. -/
inductive Replaces (rules : List Rule) : Option Char → List Char → List Char → Prop
  | nil {before : Option Char} : Replaces rules before [] []
  | keep {before : Option Char} {character : Char} {rest result : List Char} :
    (∀ rule ∈ rules, occursAt rule.name before (character :: rest) = false) →
    Replaces rules (some character) rest result →
    Replaces rules before (character :: rest) (character :: result)
  | replace {before : Option Char} {rule : Rule} {rest result : List Char} :
    rule ∈ rules → occursAt rule.name before (rule.name ++ rest) = true →
    Replaces rules (lastOr before rule.name) rest result →
    Replaces rules before (rule.name ++ rest) (rule.replacement ++ result)

/-- What a replaced text holds comes from the text or from a replacement. -/
theorem Replaces.mem {before : Option Char} {text result : List Char} {character : Char}
    (hreplaces : Replaces rules before text result) (hcharacter : character ∈ result) :
    character ∈ text ∨ ∃ rule ∈ rules, character ∈ rule.replacement := by
  induction hreplaces with
  | nil => cases hcharacter
  | keep _ _ ih =>
    rcases List.mem_cons.mp hcharacter with rfl | hlater
    · exact Or.inl List.mem_cons_self
    · exact (ih hlater).imp_left (List.mem_cons_of_mem _)
  | replace hrule _ _ ih =>
    rcases List.mem_append.mp hcharacter with hhere | hlater
    · exact Or.inr ⟨_, hrule, hhere⟩
    · exact (ih hlater).imp_left (List.mem_append_right _)

theorem replaces_replaceFrom (hnonempty : ∀ rule ∈ rules, rule.name ≠ []) (before : Option Char)
    (text : List Char) : Replaces rules before text (replaceFrom rules before 0 text) := by
  induction hlength : text.length using Nat.strongRecOn generalizing before text with
  | _ length ih =>
    subst hlength
    cases text with
    | nil => exact .nil
    | cons character rest =>
      cases hfound : rules.find? fun rule ↦ occursAt rule.name before (character :: rest) with
      | none =>
        have hnone : ∀ rule ∈ rules, occursAt rule.name before (character :: rest) = false := by
          simpa [List.find?_eq_none] using hfound
        rw [replaceFrom_of_none hnone]
        exact .keep hnone (ih _ (by simp) _ _ rfl)
      | some rule =>
        have hrule := List.mem_of_find?_eq_some hfound
        have hoccurs : occursAt rule.name before (character :: rest) = true := by
          simpa using List.find?_some hfound
        obtain ⟨behind, hbehind⟩ := prefix_of_occursAt hoccurs
        have hshorter : behind.length < (character :: rest).length := by
          have hsome := List.length_pos_iff.mpr (hnonempty rule hrule)
          rw [← hbehind, List.length_append]
          omega
        rw [← hbehind] at hfound hoccurs ⊢
        rw [replaceFrom_of_find? (hnonempty rule hrule) hfound]
        exact .replace hrule hoccurs (ih _ hshorter _ _ rfl)

end Formulary.Name
