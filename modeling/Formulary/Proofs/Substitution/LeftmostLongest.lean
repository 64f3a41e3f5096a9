import Formulary.Proofs.Ledger.ReplacedNames
import Mathlib.Data.List.Basic

/-!
# The leftmost longest cut of a text

A cut of a text consists of the characters that a substitution keeps and the names that it replaces.
It is the leftmost longest one if each of its names stands there at the boundaries of words and no
longer listed name does, and if no listed name stands where a character is kept, `IsCut`. Nothing
in this speaks of replacements: where names stand is decided on the text alone. A text has just one
such cut, `isCut_unique`, and `parts` is it, `isCut_parts`. The main statement,
`existsUnique_isCut`, says that the substitution writes the first replacement of each name of the
cut, and that pairs with different names may be listed in any order.
-/

set_option autoImplicit false
set_option relaxedAutoImplicit false

namespace Formulary.Name

open Formulary.Text

/-! ### Names that stand between texts -/

/-- A boundary of words lies between two texts: of the two characters that meet there, one belongs
to a word and the other one does not, or is missing. -/
def MeetAtBoundary (front back : List Char) : Prop :=
  ¬(front.getLast?.any isWordCharacter = true ↔ back.head?.any isWordCharacter = true)

/-- A name stands between two texts: wherever its outermost character belongs to names, a boundary
of words lies at that end. -/
structure StandsBetween (name front back : List Char) : Prop where
  opens : name.head?.any isNameCharacter = true → MeetAtBoundary front (name ++ back)
  closes : name.getLast?.any isNameCharacter = true → MeetAtBoundary (front ++ name) back

variable {name front back text : List Char}

theorem isBoundary_iff (front back : List Char) :
    isBoundary front.getLast? back.head? = true ↔ MeetAtBoundary front back := by
  rw [isBoundary, MeetAtBoundary, bne_iff_ne, ne_eq, Bool.eq_iff_iff]

/-- The test of a substitution finds a name where it stands. -/
theorem occursAt_append_iff (hname : name ≠ []) :
    occursAt name front.getLast? (name ++ back) = true ↔ StandsBetween name front back := by
  have hbegins : name.isPrefixOf (name ++ back) = true :=
    List.isPrefixOf_iff_prefix.mpr (List.prefix_append name back)
  have hopens := isBoundary_iff front (name ++ back)
  have hcloses := isBoundary_iff (front ++ name) back
  rw [List.getLast?_append_of_ne_nil front hname] at hcloses
  rw [occursAt, hbegins, Bool.true_and, List.drop_left, Bool.and_eq_true, Bool.or_eq_true,
    Bool.or_eq_true, hopens, hcloses, Bool.not_eq_true', Bool.not_eq_true']
  simp only [← Bool.not_eq_true, ← imp_iff_not_or]
  exact ⟨fun hedges ↦ ⟨hedges.1, hedges.2⟩, fun hstands ↦ ⟨hstands.opens, hstands.closes⟩⟩

/-! ### Listed names -/

/-- A name that is not blank is listed among some pairs. -/
def Lists (pairs : List (String × String)) (name : List Char) : Prop :=
  isBlank name = false ∧ ∃ pair ∈ pairs, pair.1 = String.ofList name

/-- The replacement that is listed first for a name. -/
def firstReplacement (pairs : List (String × String)) (name : List Char) : List Char :=
  ((pairs.lookup (String.ofList name)).getD "").toList

variable {pairs others : List (String × String)} {rule : Rule}

theorem Lists.ne_nil (hlisted : Lists pairs name) : name ≠ [] := by
  rintro rfl
  exact absurd hlisted.1 (by decide)

/-- The rules of a substitution are for the listed names. -/
theorem lists_iff_exists_rule :
    Lists pairs name ↔ ∃ rule ∈ (Substitution.ofPairs pairs).rules, rule.name = name := by
  have hknown : (∃ pair ∈ pairs, pair.1 = String.ofList name) ↔
      ∃ replacement, pairs.lookup (String.ofList name) = some replacement := by
    rw [← Option.isSome_iff_exists, List.lookup_isSome_iff]
    exact exists_congr fun pair ↦ and_congr_right fun _ ↦ by rw [beq_iff_eq, eq_comm]
  rw [Lists, hknown]
  constructor
  · rintro ⟨hblank, replacement, hlookup⟩
    exact ⟨⟨name, replacement.toList⟩, mem_rules_iff.mpr ⟨hblank, by simpa using hlookup⟩, rfl⟩
  · rintro ⟨rule, hrule, rfl⟩
    obtain ⟨hblank, hlookup⟩ := mem_rules_iff.mp hrule
    exact ⟨hblank, _, hlookup⟩

/-- A rule writes the replacement that is listed first for its name. -/
theorem replacement_eq_firstReplacement (hrule : rule ∈ (Substitution.ofPairs pairs).rules) :
    rule.replacement = firstReplacement pairs rule.name := by
  rw [firstReplacement, (mem_rules_iff.mp hrule).2, Option.getD_some, String.toList_ofList]

theorem ne_nil_of_mem_rules (hrule : rule ∈ (Substitution.ofPairs pairs).rules) :
    rule.name ≠ [] :=
  (lists_iff_exists_rule.mpr ⟨rule, hrule, rfl⟩).ne_nil

/-! ### Cuts -/

/-- The text that some parts are cut from. -/
def sourceOf (parts : List Part) : List Char :=
  written id parts

@[simp] theorem sourceOf_nil : sourceOf [] = [] := rfl

@[simp] theorem sourceOf_cons_character (character : Char) (rest : List Part) :
    sourceOf (.character character :: rest) = character :: sourceOf rest := rfl

@[simp] theorem sourceOf_cons_name (name : List Char) (rest : List Part) :
    sourceOf (.name name :: rest) = name ++ sourceOf rest := rfl

@[simp] theorem sourceOf_append (front back : List Part) :
    sourceOf (front ++ back) = sourceOf front ++ sourceOf back := by
  rw [sourceOf, written, List.flatMap_append]
  rfl

/-- What a part between two texts has to be: a listed name that stands there, of all that do the
longest one, or a character at which no listed name stands. -/
def Part.Fits (pairs : List (String × String)) (front : List Char) (part : Part)
    (back : List Char) : Prop :=
  match part with
  | .name text =>
    Lists pairs text ∧ StandsBetween text front back ∧
      ∀ other rest, Lists pairs other → other ++ rest = text ++ back →
        StandsBetween other front rest → other.length ≤ text.length
  | .character value =>
    ∀ other rest, Lists pairs other → other ++ rest = value :: back →
      ¬StandsBetween other front rest

/-- Each of some parts is what it has to be, with a text in front of them all. -/
def FitBehind (pairs : List (String × String)) (front : List Char) (parts : List Part) : Prop :=
  ∀ done part rest, parts = done ++ part :: rest →
    part.Fits pairs (front ++ sourceOf done) (sourceOf rest)

/-- Some parts are the leftmost longest cut of a text. -/
structure IsCut (pairs : List (String × String)) (text : List Char) (parts : List Part) :
    Prop where
  source : sourceOf parts = text
  fit : FitBehind pairs [] parts

theorem fitBehind_nil (pairs : List (String × String)) (front : List Char) :
    FitBehind pairs front [] := by
  intro done part rest hsplit
  cases done <;> cases hsplit

theorem fitBehind_cons {part : Part} {rest : List Part} :
    FitBehind pairs front (part :: rest) ↔
      part.Fits pairs front (sourceOf rest) ∧
        FitBehind pairs (front ++ sourceOf [part]) rest := by
  constructor
  · intro hfit
    refine ⟨?_, fun done other later hsplit ↦ ?_⟩
    · have hhere := hfit [] part rest rfl
      rwa [sourceOf_nil, List.append_nil] at hhere
    · have hlater := hfit (part :: done) other later (by rw [hsplit, List.cons_append])
      rwa [← List.singleton_append, sourceOf_append, ← List.append_assoc] at hlater
  · rintro ⟨hhere, hfit⟩ done other later hsplit
    cases done with
    | nil =>
      obtain ⟨rfl, rfl⟩ := List.cons.inj hsplit
      rwa [sourceOf_nil, List.append_nil]
    | cons first done =>
      obtain ⟨rfl, hrest⟩ := List.cons.inj hsplit
      have hlater := hfit done other later hrest
      rwa [List.append_assoc, ← sourceOf_append, List.singleton_append] at hlater

/-! ### A text has one cut -/

/-- Of the names that stand at one place, the longest one is unique. -/
theorem name_eq_of_fits {first second : List Char} {rest later : List Char}
    (hfirst : (Part.name first).Fits pairs front rest)
    (hsecond : (Part.name second).Fits pairs front later)
    (hsame : first ++ rest = second ++ later) : first = second ∧ rest = later := by
  obtain ⟨hlists, hstands, hlongest⟩ := hfirst
  obtain ⟨hotherLists, hotherStands, hotherLongest⟩ := hsecond
  have hlength : first.length = second.length :=
    Nat.le_antisymm (hotherLongest first rest hlists hsame hstands)
      (hlongest second later hotherLists hsame.symm hotherStands)
  exact List.append_inj hsame hlength

theorem eq_of_fitBehind {first second : List Part} (hfirst : FitBehind pairs front first)
    (hsecond : FitBehind pairs front second) (hsame : sourceOf first = sourceOf second) :
    first = second := by
  induction first generalizing front second with
  | nil =>
    cases second with
    | nil => rfl
    | cons part rest =>
      cases part with
      | character character => cases hsame
      | name name =>
        have hlists := (fitBehind_cons.mp hsecond).1.1
        exact absurd (List.append_eq_nil_iff.mp hsame.symm).1 hlists.ne_nil
  | cons part rest ih =>
    obtain ⟨hhere, hrest⟩ := fitBehind_cons.mp hfirst
    cases second with
    | nil =>
      cases part with
      | character character => cases hsame
      | name name => exact absurd (List.append_eq_nil_iff.mp hsame).1 hhere.1.ne_nil
    | cons other later =>
      obtain ⟨hother, hlater⟩ := fitBehind_cons.mp hsecond
      cases part with
      | character character =>
        cases other with
        | character another =>
          obtain ⟨rfl, hsources⟩ := List.cons.inj hsame
          rw [ih hrest hlater hsources]
        | name name =>
          -- One cut keeps the character with which a name of the other one starts.
          exact absurd hother.2.1 (hhere name _ hother.1 hsame.symm)
      | name name =>
        cases other with
        | character character => exact absurd hhere.2.1 (hother name _ hhere.1 hsame)
        | name another =>
          obtain ⟨rfl, hsources⟩ := name_eq_of_fits hhere hother hsame
          rw [ih hrest hlater hsources]

/-- A text has no other cut. -/
theorem isCut_unique {first second : List Part} (hfirst : IsCut pairs text first)
    (hsecond : IsCut pairs text second) : first = second :=
  eq_of_fitBehind hfirst.fit hsecond.fit (hfirst.source.trans hsecond.source.symm)

/-! ### The parts of a substitution -/

section Parts

variable {rules : List Rule} {before : Option Char} {character : Char} {rest : List Char}

/-- What a replaced name takes up has no further parts. -/
theorem parts_skip (before : Option Char) (word rest : List Char) :
    parts rules before word.length (word ++ rest) = parts rules (lastOr before word) 0 rest := by
  induction word generalizing before with
  | nil => rfl
  | cons character word ih => rw [List.cons_append, List.length_cons, parts, ih, lastOr_cons]

theorem parts_of_find? (hname : rule.name ≠ [])
    (hfound : (rules.find? fun other ↦ occursAt other.name before (rule.name ++ rest)) =
      some rule) :
    parts rules before 0 (rule.name ++ rest) =
      .name rule.name :: parts rules (lastOr before rule.name) 0 rest := by
  obtain ⟨name, replacement⟩ := rule
  obtain ⟨character, word, rfl⟩ := List.exists_cons_of_ne_nil hname
  rw [List.cons_append] at hfound
  rw [List.cons_append, parts, hfound, lastOr_cons, ← parts_skip]
  rfl

theorem parts_of_none
    (hnone : (rules.find? fun other ↦ occursAt other.name before (character :: rest)) = none) :
    parts rules before 0 (character :: rest) =
      .character character :: parts rules (some character) 0 rest := by
  rw [parts, hnone]

theorem lastOr_getLast? (front word : List Char) :
    lastOr front.getLast? word = (front ++ word).getLast? := by
  rw [lastOr, List.getLast?_append]

/-- The name of the rule that a substitution finds is a part that fits. -/
theorem fits_of_find?
    (hfound : ((Substitution.ofPairs pairs).rules.find? fun other ↦
      occursAt other.name front.getLast? (rule.name ++ rest)) = some rule) :
    (Part.name rule.name).Fits pairs front rest := by
  obtain ⟨hrule, hoccurs, hlongest⟩ := find?_eq_some_iff.mp hfound
  refine ⟨lists_iff_exists_rule.mpr ⟨rule, hrule, rfl⟩,
    (occursAt_append_iff (ne_nil_of_mem_rules hrule)).mp hoccurs,
    fun other behind hlists hsplit hstands ↦ ?_⟩
  obtain ⟨another, hanother, rfl⟩ := lists_iff_exists_rule.mp hlists
  refine hlongest another hanother ?_
  rw [← hsplit]
  exact (occursAt_append_iff hlists.ne_nil).mpr hstands

/-- A character at which a substitution finds no rule is a part that fits. -/
theorem fits_of_none
    (hnone : ((Substitution.ofPairs pairs).rules.find? fun other ↦
      occursAt other.name front.getLast? (character :: rest)) = none) :
    (Part.character character).Fits pairs front rest := by
  intro other behind hlists hsplit hstands
  obtain ⟨another, hanother, rfl⟩ := lists_iff_exists_rule.mp hlists
  have hoccurs := (occursAt_append_iff hlists.ne_nil).mpr hstands
  rw [hsplit] at hoccurs
  exact List.find?_eq_none.mp hnone another hanother hoccurs

/-- The parts of a substitution make up the text and fit. -/
theorem fitBehind_parts (pairs : List (String × String)) (front text : List Char) :
    sourceOf (parts (Substitution.ofPairs pairs).rules front.getLast? 0 text) = text ∧
      FitBehind pairs front (parts (Substitution.ofPairs pairs).rules front.getLast? 0 text) := by
  -- A replaced name takes up several characters, so this is no induction on the list itself.
  induction hlength : text.length using Nat.strongRecOn generalizing front text with
  | _ length ih =>
    subst hlength
    cases text with
    | nil => exact ⟨rfl, fitBehind_nil pairs front⟩
    | cons character rest =>
      cases hfound : (Substitution.ofPairs pairs).rules.find? fun rule ↦
          occursAt rule.name front.getLast? (character :: rest) with
      | none =>
        obtain ⟨hsource, hfit⟩ := ih _ (by simp) (front ++ [character]) rest rfl
        rw [List.getLast?_concat] at hsource hfit
        rw [parts_of_none hfound]
        refine ⟨by rw [sourceOf_cons_character, hsource], fitBehind_cons.mpr ⟨?_, hfit⟩⟩
        rw [hsource]
        exact fits_of_none hfound
      | some rule =>
        obtain ⟨hrule, hoccurs, _⟩ := find?_eq_some_iff.mp hfound
        obtain ⟨behind, hbehind⟩ := prefix_of_occursAt hoccurs
        have hname := ne_nil_of_mem_rules hrule
        have hshorter : behind.length < (character :: rest).length := by
          have hsome := List.length_pos_iff.mpr hname
          rw [← hbehind, List.length_append]
          omega
        obtain ⟨hsource, hfit⟩ := ih _ hshorter (front ++ rule.name) behind rfl
        rw [← lastOr_getLast?] at hsource hfit
        rw [← hbehind] at hfound ⊢
        rw [parts_of_find? hname hfound]
        have hpart : sourceOf [.name rule.name] = rule.name := List.append_nil rule.name
        refine ⟨by rw [sourceOf_cons_name, hsource], fitBehind_cons.mpr ⟨?_, by rwa [hpart]⟩⟩
        rw [hsource]
        exact fits_of_find? hfound

theorem isCut_parts (pairs : List (String × String)) (text : List Char) :
    IsCut pairs text (parts (Substitution.ofPairs pairs).rules none 0 text) := by
  obtain ⟨hsource, hfit⟩ := fitBehind_parts pairs [] text
  exact ⟨hsource, hfit⟩

end Parts

/-! ### Substitutions -/

/-- A substitution writes the first replacements for the names of a cut. -/
theorem replace_eq_written_of_isCut {parts : List Part} (hcut : IsCut pairs text parts) :
    (Substitution.ofPairs pairs).replace text = written (firstReplacement pairs) parts := by
  rw [isCut_unique hcut (isCut_parts pairs text)]
  exact replaceFrom_eq_written fun _ ↦ replacement_eq_firstReplacement

/-- A look-up sees only the pairs of its key. -/
theorem lookup_eq_head?_filter (pairs : List (String × String)) (key : String) :
    pairs.lookup key = (pairs.filter fun pair ↦ pair.1 = key).head?.map Prod.snd := by
  induction pairs with
  | nil => rfl
  | cons pair pairs ih =>
    rw [List.lookup_cons, List.filter_cons]
    by_cases hkey : pair.1 = key
    · simp [hkey]
    · rw [beq_eq_false_iff_ne.mpr (Ne.symm hkey)]
      simpa [hkey] using ih

/-- Pairs in which every name has the same first replacement make the same substitution. -/
theorem replace_congr_of_lookup (hsame : ∀ key, others.lookup key = pairs.lookup key)
    (text : List Char) :
    (Substitution.ofPairs others).replace text = (Substitution.ofPairs pairs).replace text := by
  refine replaceFrom_congr fun _ _ _ ↦ find?_congr fun rule _ ↦ ?_
  rw [mem_rules_iff, mem_rules_iff, hsame]

/-- Whatever the pairs and the text, the text has exactly one leftmost longest cut, and the
substitution writes the first replacement of each name of the cut between the characters that it
keeps. The order of pairs with different names plays no part. -/
theorem existsUnique_isCut (pairs : List (String × String)) (text : String) :
    (∃! parts, IsCut pairs text.toList parts) ∧
      (∀ parts, IsCut pairs text.toList parts →
        (Substitution.ofPairs pairs).apply text =
          String.ofList (written (firstReplacement pairs) parts)) ∧
      ∀ others : List (String × String),
        (∀ name, (others.filter fun pair ↦ pair.1 = name) =
          pairs.filter fun pair ↦ pair.1 = name) →
        (Substitution.ofPairs others).apply text = (Substitution.ofPairs pairs).apply text := by
  refine ⟨⟨_, isCut_parts pairs text.toList, fun _ hcut ↦ isCut_unique hcut (isCut_parts ..)⟩,
    fun parts hcut ↦ ?_, fun others hsame ↦ ?_⟩
  · rw [Substitution.apply, replace_eq_written_of_isCut hcut]
  · rw [Substitution.apply, Substitution.apply, replace_congr_of_lookup fun key ↦ ?_]
    rw [lookup_eq_head?_filter, lookup_eq_head?_filter, hsame]

/-- The longest name wins, and what is written for it is not searched again. -/
example : (Substitution.ofPairs [("A", "B"), ("B", "C"), ("A", "D"), ("A B", "A B C")]).apply
    "B + A B + BA" = "C + A B C + BA" := by
  decide +kernel

end Formulary.Name
