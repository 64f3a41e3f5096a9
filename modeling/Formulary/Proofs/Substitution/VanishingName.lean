import Formulary.Proofs.Registry.Run
import Formulary.Proofs.Substitution.LeftmostLongest
import Formulary.Proofs.Substitution.WholeWords

/-!
# Names of several words vanish

A worded name is made of words of ASCII letters and digits with single spaces between them. Its
identifier has underscores for the spaces, `identifierCharacters_of_isWorded`, so what is written
for a name of several words can be part of no worded name, and what is written for a single word is
the word. Where a name of several words stood in a rewritten formula, it would therefore stand in
the formula as well, `exists_source_of_written`, and the leftmost longest cut would have replaced
it or a longer name. The main statement is `not_standsAloneIn_withIdentifiers`.
-/

set_option autoImplicit false
set_option relaxedAutoImplicit false

namespace Formulary.Name

open Formulary.Text

/-! ### Worded names -/

/-- Whether a character is an ASCII letter or an ASCII digit. -/
def isWordLetter (character : Char) : Bool :=
  isAsciiLetter character || isAsciiDigit character

/-- The words of a name, with single spaces between them. -/
def spacedWords (name : List Char) : List (List Char) :=
  name.splitOn ' '

/-- Whether a name is made of words of ASCII letters and digits with single spaces between them. -/
def isWorded (name : List Char) : Bool :=
  (spacedWords name).all fun word ↦ !word.isEmpty && word.all isWordLetter

variable {name word : List Char} {words : List (List Char)} {character : Char}

theorem isPlainCharacter_of_isWordLetter (hletter : isWordLetter character = true) :
    isPlainCharacter character = true := by
  rcases (Bool.or_eq_true _ _).mp hletter with hascii | hdigit
  · exact isPlainCharacter_of_isAsciiLetter hascii
  · rw [isPlainCharacter, hdigit, Bool.or_true]

/-- The letters of words are no separators. -/
theorem isSeparator_of_isWordLetter (hletter : isWordLetter character = true) :
    isSeparator character = false ∧ character ≠ '_' := by
  rcases (Bool.or_eq_true _ _).mp hletter with hascii | hdigit
  · exact (isSeparator_of_isAsciiLetter hascii).2
  · exact of_ascii
      (fun character ↦ isAsciiDigit character = true →
        isSeparator character = false ∧ character ≠ '_')
      (by decide +kernel) (isAscii_of_isAsciiDigit hdigit) hdigit

/-- A text is a word: it is not empty and holds letters and digits only. -/
def IsWord (word : List Char) : Prop :=
  word ≠ [] ∧ ∀ character ∈ word, isWordLetter character = true

theorem isWorded_iff (name : List Char) :
    isWorded name = true ↔ ∀ word ∈ spacedWords name, IsWord word := by
  simp [isWorded, IsWord]

theorem intercalate_spacedWords (name : List Char) :
    [' '].intercalate (spacedWords name) = name :=
  List.intercalate_splitOn ' '

theorem spacedWords_ne_nil (name : List Char) : spacedWords name ≠ [] :=
  List.splitOn_ne_nil ' ' name

/-! ### Words with a mark between them -/

section Intercalate

variable {mark : Char}

/-- Words with a mark between them hold letters of words and the mark. -/
theorem mem_intercalate (hwords : ∀ word ∈ words, IsWord word)
    (hmember : character ∈ [mark].intercalate words) :
    isWordLetter character = true ∨ character = mark := by
  induction words with
  | nil => cases hmember
  | cons word words ih =>
    have hletters := (hwords word List.mem_cons_self).2
    cases words with
    | nil =>
      rw [List.intercalate_singleton] at hmember
      exact Or.inl (hletters character hmember)
    | cons second rest =>
      rw [List.intercalate_cons_cons, List.mem_append, List.mem_append,
        List.mem_singleton] at hmember
      rcases hmember with (hhere | hmark) | hrest
      · exact Or.inl (hletters character hhere)
      · exact Or.inr hmark
      · exact ih (fun other hother ↦ hwords other (List.mem_cons_of_mem word hother)) hrest

/-- Words with a mark between them start and end with a letter of a word. -/
theorem edges_intercalate (hnonempty : words ≠ []) (hwords : ∀ word ∈ words, IsWord word) :
    ([mark].intercalate words).head?.any isWordLetter = true ∧
      ([mark].intercalate words).getLast?.any isWordLetter = true := by
  induction words with
  | nil => exact absurd rfl hnonempty
  | cons word words ih =>
    obtain ⟨hfilled, hletters⟩ := hwords word List.mem_cons_self
    have hhead (rest : List Char) : (word ++ rest).head?.any isWordLetter = true := by
      obtain ⟨first, others, rfl⟩ := List.exists_cons_of_ne_nil hfilled
      exact hletters first List.mem_cons_self
    cases words with
    | nil =>
      rw [List.intercalate_singleton]
      refine ⟨by simpa using hhead [], ?_⟩
      rw [List.getLast?_eq_some_getLast hfilled]
      exact hletters _ (List.getLast_mem hfilled)
    | cons second rest =>
      obtain ⟨hfirst, hlast⟩ := ih (List.cons_ne_nil second rest)
        fun other hother ↦ hwords other (List.mem_cons_of_mem word hother)
      have hlater : [mark].intercalate (second :: rest) ≠ [] := by
        intro hnone
        rw [hnone] at hfirst
        cases hfirst
      rw [List.intercalate_cons_cons, List.append_assoc]
      refine ⟨hhead _, ?_⟩
      rwa [← List.append_assoc, List.getLast?_append_of_ne_nil _ hlater]

/-- Several words have the mark between them. -/
theorem mark_mem_intercalate (hseveral : 1 < words.length) :
    mark ∈ [mark].intercalate words := by
  obtain ⟨first, second, rest, rfl⟩ : ∃ first second rest, words = first :: second :: rest := by
    cases words with
    | nil => cases hseveral
    | cons first words =>
      cases words with
      | nil => exact absurd hseveral (Nat.lt_irrefl 1)
      | cons second rest => exact ⟨first, second, rest, rfl⟩
  rw [List.intercalate_cons_cons]
  simp

end Intercalate

/-! ### Identifiers of worded names -/

/-- A word in front of a text is not collapsed. -/
theorem collapseRuns_append_of_isWord (hword : ∀ character ∈ word, isWordLetter character = true)
    (rest : List Char) :
    collapseRuns isSeparator '_' (word ++ rest) = word ++ collapseRuns isSeparator '_' rest := by
  induction word with
  | nil => rfl
  | cons character word ih =>
    have hother := (isSeparator_of_isWordLetter (hword character List.mem_cons_self)).1
    have hlater := ih fun other hother ↦ hword other (List.mem_cons_of_mem character hother)
    rw [collapseRuns] at hlater
    rw [List.cons_append, collapseRuns, collapseFrom, if_neg (Bool.eq_false_iff.mp hother), hlater]
    rfl

theorem collapseRuns_intercalate (hwords : ∀ word ∈ words, IsWord word) :
    collapseRuns isSeparator '_' ([' '].intercalate words) = ['_'].intercalate words := by
  induction words with
  | nil => rfl
  | cons word words ih =>
    have hletters := (hwords word List.mem_cons_self).2
    cases words with
    | nil =>
      rw [List.intercalate_singleton, List.intercalate_singleton]
      simpa [collapseRuns, collapseFrom] using collapseRuns_append_of_isWord hletters []
    | cons second rest =>
      have hlater := fun other hother ↦ hwords other (List.mem_cons_of_mem word hother)
      have hfirst : ([' '].intercalate (second :: rest)).head?.any isSeparator = false := by
        have hletter := (@edges_intercalate _ ' ' (List.cons_ne_nil second rest) hlater).1
        cases hhead : ([' '].intercalate (second :: rest)).head? with
        | none => rfl
        | some character =>
          rw [hhead] at hletter
          exact (isSeparator_of_isWordLetter hletter).1
      rw [List.intercalate_cons_cons, List.intercalate_cons_cons, collapseRuns,
        collapseFrom_append false _ hfirst, ih hlater]
      congr 1
      exact collapseRuns_append_of_isWord hletters [' ']

/-- The identifier of a worded name has underscores for the spaces. -/
theorem identifierCharacters_of_isWorded (hname : isWorded name = true) :
    identifierCharacters name = ['_'].intercalate (spacedWords name) := by
  have hwords := (isWorded_iff name).mp hname
  obtain ⟨hfirst, hlast⟩ := @edges_intercalate _ '_' (spacedWords_ne_nil name) hwords
  have hletter {character? : Option Char} (hany : character?.any isWordLetter = true) :
      character? ≠ some '_' := by
    rintro rfl
    exact absurd hany (by decide)
  have hcollapsed := collapseRuns_intercalate hwords
  rw [intercalate_spacedWords] at hcollapsed
  rw [identifierCharacters, hcollapsed, strip_eq_self (hletter hfirst) (hletter hlast)]

/-- A worded name holds no underscores, and has plain edges. -/
theorem underscore_not_mem_of_isWorded (hname : isWorded name = true) : '_' ∉ name := by
  intro hmember
  rw [← intercalate_spacedWords name] at hmember
  rcases mem_intercalate ((isWorded_iff name).mp hname) hmember with hletter | hspace
  · exact absurd hletter (by decide)
  · exact absurd hspace (by decide)

theorem hasPlainEdges_of_isWorded (hname : isWorded name = true) : hasPlainEdges name = true := by
  obtain ⟨hfirst, hlast⟩ :=
    @edges_intercalate _ ' ' (spacedWords_ne_nil name) ((isWorded_iff name).mp hname)
  rw [intercalate_spacedWords] at hfirst hlast
  have hplain {character? : Option Char} (hany : character?.any isWordLetter = true) :
      character?.any isPlainCharacter = true := by
    cases character? with
    | none => cases hany
    | some character => exact isPlainCharacter_of_isWordLetter hany
  rw [hasPlainEdges, hplain hfirst, hplain hlast, Bool.and_self]

theorem space_mem_of_several (hseveral : 1 < (spacedWords name).length) : ' ' ∈ name := by
  have hspace := @mark_mem_intercalate _ ' ' hseveral
  rwa [intercalate_spacedWords] at hspace

/-- What is written for a name is a plain text, and it is the name itself or has an underscore. -/
structure WrittenPlainly (name written : List Char) : Prop where
  nonempty : written ≠ []
  plain : ∀ character ∈ written, isPlainCharacter character = true
  kept : written = name ∨ '_' ∈ written

/-- Identifiers are plain, and those of several words have an underscore. -/
theorem writtenPlainly_identifierCharacters (hname : isWorded name = true) :
    WrittenPlainly name (identifierCharacters name) := by
  have hwords := (isWorded_iff name).mp hname
  have hidentifier := identifierCharacters_of_isWorded hname
  refine ⟨?_, fun character hmember ↦ ?_, ?_⟩
  · rw [hidentifier]
    intro hnone
    have hfirst := (@edges_intercalate _ '_' (spacedWords_ne_nil name) hwords).1
    rw [hnone] at hfirst
    cases hfirst
  · rw [hidentifier] at hmember
    rcases mem_intercalate hwords hmember with hletter | rfl
    · exact isPlainCharacter_of_isWordLetter hletter
    · decide
  · rw [hidentifier]
    rcases Nat.lt_or_ge 1 (spacedWords name).length with hseveral | hsingle
    · exact Or.inr (mark_mem_intercalate hseveral)
    · refine Or.inl ?_
      obtain ⟨word, hword⟩ : ∃ word, spacedWords name = [word] :=
        List.length_eq_one_iff.mp (Nat.le_antisymm hsingle
          (List.length_pos_iff.mpr (spacedWords_ne_nil name)))
      have hspaced := intercalate_spacedWords name
      rwa [hword, List.intercalate_singleton] at hspaced ⊢

/-! ### Names in a rewritten text -/

variable {replacement : List Char → List Char} {parts : List Part} {front back : List Char}
  {pairs : List (String × String)}

theorem WrittenPlainly.head? {written : List Char} (hplainly : WrittenPlainly name written)
    (rest : List Char) : (written ++ rest).head?.any isPlainCharacter = true := by
  obtain ⟨first, others, rfl⟩ := List.exists_cons_of_ne_nil hplainly.nonempty
  exact hplainly.plain first List.mem_cons_self

theorem written_cons_name (replacement : List Char → List Char) (name : List Char)
    (rest : List Part) : written replacement (.name name :: rest) =
      replacement name ++ written replacement rest := rfl

/-- What does not start with a plain character when it is written did not start with one. -/
theorem head?_sourceOf
    (hwrites : ∀ name, .name name ∈ parts → WrittenPlainly name (replacement name))
    (hhead : (written replacement parts).head?.any isPlainCharacter = false) :
    (sourceOf parts).head?.any isPlainCharacter = false := by
  cases parts with
  | nil => rfl
  | cons part rest =>
    cases part with
    | character character => exact hhead
    | name name =>
      rw [written_cons_name, (hwrites name List.mem_cons_self).head?] at hhead
      cases hhead

/-- A plain text in front of a written rest is part of a word that no plain character follows. -/
theorem exists_of_append_eq_append {written rest : List Char}
    (hplain : ∀ character ∈ written, isPlainCharacter character = true)
    (hback : back.head?.any isPlainCharacter = false) (hsplit : written ++ rest = word ++ back) :
    ∃ later, word = written ++ later ∧ rest = later ++ back := by
  rcases List.append_eq_append_iff.mp hsplit with ⟨later, rfl, hrest⟩ | ⟨more, rfl, rfl⟩
  · exact ⟨later, rfl, hrest⟩
  · cases more with
    | nil => exact ⟨[], by simp, rfl⟩
    | cons character more =>
      have hhere : isPlainCharacter character = false := hback
      rw [hplain character (by simp)] at hhere
      cases hhere

/-- Where a word without underscores starts what is written for some parts, and no plain character
follows it, it starts what the parts are cut from. -/
theorem exists_source_of_written
    (hwrites : ∀ name, .name name ∈ parts → WrittenPlainly name (replacement name))
    (hword : '_' ∉ word) (hback : back.head?.any isPlainCharacter = false)
    (hwritten : written replacement parts = word ++ back) :
    ∃ behind, sourceOf parts = word ++ behind ∧
      behind.head?.any isPlainCharacter = false := by
  induction parts generalizing word with
  | nil =>
    obtain ⟨rfl, rfl⟩ := List.append_eq_nil_iff.mp hwritten.symm
    exact ⟨[], rfl, rfl⟩
  | cons part rest ih =>
    have hlater := fun name hname ↦ hwrites name (List.mem_cons_of_mem part hname)
    cases part with
    | character character =>
      cases word with
      | nil => exact ⟨_, rfl, head?_sourceOf hwrites (hwritten ▸ hback)⟩
      | cons first word =>
        obtain ⟨rfl, hrest⟩ := List.cons.inj hwritten
        obtain ⟨behind, hsource, hbehind⟩ := ih hlater (mt (List.mem_cons_of_mem _) hword) hrest
        exact ⟨behind, by rw [sourceOf_cons_character, hsource, List.cons_append], hbehind⟩
    | name name =>
      have hname := hwrites name List.mem_cons_self
      obtain ⟨later, rfl, hrest⟩ := exists_of_append_eq_append hname.plain hback hwritten
      obtain ⟨hhere, hothers⟩ := not_or.mp (mt List.mem_append.mpr hword)
      obtain ⟨behind, hsource, hbehind⟩ := ih hlater hothers hrest
      refine ⟨behind, ?_, hbehind⟩
      rw [sourceOf_cons_name, hsource, hname.kept.resolve_right hhere, List.append_assoc]

/-- In ASCII text a name with plain edges stands where no plain character is next to it. -/
theorem standsBetween_of_plain (hedges : hasPlainEdges name = true)
    (hascii : ∀ character ∈ front ++ (name ++ back), character.toNat < 128)
    (hfront : front.getLast?.any isPlainCharacter = false)
    (hback : back.head?.any isPlainCharacter = false) : StandsBetween name front back := by
  refine (occursAt_append_iff (ne_nil_of_hasPlainEdges hedges)).mp
    ((occursAt_iff hedges _).mpr ⟨back, rfl, ?_, ?_⟩)
  · exact (classes_of_not_plain (fun character hmember ↦ hascii character
      (List.mem_append_left _ (List.mem_of_getLast? hmember))) hfront).2
  · exact (classes_of_not_plain (fun character hmember ↦ hascii character
      (List.mem_append_right _ (List.mem_append_right _ (List.mem_of_head? hmember)))) hback).2

/-- Names of one cut are listed. -/
theorem lists_of_mem (hfit : FitBehind pairs front parts) (hmember : .name name ∈ parts) :
    Lists pairs name := by
  obtain ⟨done, rest, hsplit⟩ := List.append_of_mem hmember
  exact (hfit done (.name name) rest hsplit).1

theorem lastOr_plain {before : Option Char} (hnonempty : word ≠ [])
    (hplain : ∀ character ∈ word, isPlainCharacter character = true) :
    (lastOr before word).any isPlainCharacter = true := by
  rw [lastOr, List.getLast?_eq_some_getLast hnonempty]
  exact hplain _ (List.getLast_mem hnonempty)

section Several

variable (hwrites : ∀ name, Lists pairs name → WrittenPlainly name (replacement name))
  (hlists : Lists pairs name) (hname : isWorded name = true)
  (hseveral : 1 < (spacedWords name).length) (hback : back.head?.any isPlainCharacter = false)

include hwrites hlists hname hseveral hback

/-- What is written for a cut does not start with a listed name of several words: the cut would
have that name there, or a longer one. -/
theorem not_written_at_front (hfit : FitBehind pairs front parts)
    (hascii : ∀ character ∈ front ++ sourceOf parts, character.toNat < 128)
    (hfront : front.getLast?.any isPlainCharacter = false) :
    written replacement parts ≠ name ++ back := by
  intro hwritten
  have hunderscore := underscore_not_mem_of_isWorded hname
  obtain ⟨behind, hsource, hbehind⟩ := exists_source_of_written
    (fun other hother ↦ hwrites other (lists_of_mem hfit hother)) hunderscore hback hwritten
  rw [hsource] at hascii
  have hstands := standsBetween_of_plain (hasPlainEdges_of_isWorded hname) hascii hfront hbehind
  cases parts with
  | nil => exact hlists.ne_nil (List.append_eq_nil_iff.mp hsource.symm).1
  | cons part rest =>
    have hhere := (fitBehind_cons.mp hfit).1
    cases part with
    | character character => exact hhere name behind hlists hsource.symm hstands
    | name longest =>
      -- The longest name here starts with this one, so it has a space and is not written as it is.
      have hlength := hhere.2.2 name behind hlists hsource.symm hstands
      have hbegins : name <+: longest :=
        List.prefix_of_prefix_length_le ⟨behind, hsource.symm⟩ ⟨_, rfl⟩ hlength
      have hplainly := hwrites longest hhere.1
      rcases hplainly.kept with hkept | hmark
      · have hspace : ' ' ∈ replacement longest := by
          rw [hkept]
          exact hbegins.subset (space_mem_of_several hseveral)
        exact absurd (hplainly.plain ' ' hspace) (by decide)
      · obtain ⟨later, rfl, _⟩ := exists_of_append_eq_append hplainly.plain hback hwritten
        exact hunderscore (List.mem_append_left later hmark)

/-- What is written for a cut holds no listed name of several words. -/
theorem not_written_of_several {ahead : List Char} (hfit : FitBehind pairs front parts)
    (hascii : ∀ character ∈ front ++ sourceOf parts, character.toNat < 128)
    (hahead : (lastOr front.getLast? ahead).any isPlainCharacter = false) :
    written replacement parts ≠ ahead ++ (name ++ back) := by
  induction parts generalizing front ahead with
  | nil =>
    intro hwritten
    obtain ⟨_, hrest⟩ := List.append_eq_nil_iff.mp hwritten.symm
    exact hlists.ne_nil (List.append_eq_nil_iff.mp hrest).1
  | cons part rest ih =>
    intro hwritten
    cases ahead with
    | nil =>
      exact not_written_at_front hwrites hlists hname hseveral hback hfit hascii hahead hwritten
    | cons first ahead =>
      obtain ⟨hhere, hlater⟩ := fitBehind_cons.mp hfit
      cases part with
      | character character =>
        obtain ⟨rfl, hrest⟩ := List.cons.inj hwritten
        rw [lastOr_cons] at hahead
        refine ih hlater ?_ ?_ hrest
        · rwa [List.append_assoc]
        · rwa [sourceOf_cons_character, sourceOf_nil, List.getLast?_concat]
      | name longest =>
        have hplainly := hwrites longest hhere.1
        rw [written_cons_name] at hwritten
        -- No plain character stands in front of the name, so it starts behind what is written here.
        rcases List.append_eq_append_iff.mp hwritten with
          ⟨later, hsplit, hrest⟩ | ⟨more, hsplit, _⟩
        · rw [hsplit, lastOr_append] at hahead
          by_cases hnone : later = []
          · rw [hnone, lastOr_nil, lastOr_plain hplainly.nonempty hplainly.plain] at hahead
            cases hahead
          · refine ih hlater ?_ ?_ hrest
            · rwa [List.append_assoc, ← sourceOf_append]
            · rwa [lastOr_of_ne_nil hnone _ (lastOr front.getLast? (replacement longest))]
        · rw [lastOr_plain (List.cons_ne_nil first ahead) fun character hmember ↦
            hplainly.plain character (hsplit ▸ List.mem_append_left more hmember)] at hahead
          cases hahead

end Several

/-! ### Rewritten formulas -/

namespace Registry

variable {steps : List Registration}

/-- A registry of worded names has entries for worded names, with their identifiers. -/
theorem isWorded_of_mem_entries (hnames : ∀ step ∈ steps, isWorded step.name.toList = true)
    {entry : String × String} (hentry : entry ∈ (ofRun steps).entries) :
    isWorded entry.1.toList = true ∧ Lists (ofRun steps).entries entry.1.toList := by
  have hworded : isWorded entry.1.toList = true := by
    rw [entries_ofRun] at hentry
    obtain ⟨name, hname, rfl⟩ := List.mem_map.mp hentry
    obtain ⟨step, hstep, rfl⟩ :=
      List.mem_map.mp (List.mem_of_mem_filter (List.mem_eraseDups.mp hname))
    exact hnames step hstep
  exact ⟨hworded, isBlank_of_hasPlainEdges (hasPlainEdges_of_isWorded hworded), entry, hentry,
    (String.ofList_toList ..).symm⟩

/-- What a registry of worded names writes for them is plain. -/
theorem writtenPlainly_firstReplacement
    (hnames : ∀ step ∈ steps, isWorded step.name.toList = true)
    (hlists : Lists (ofRun steps).entries name) :
    WrittenPlainly name (firstReplacement (ofRun steps).entries name) := by
  obtain ⟨_, entry, hentry, hkey⟩ := hlists
  have hworded := (isWorded_of_mem_entries hnames hentry).1
  rw [hkey, String.toList_ofList] at hworded
  have hreplacement : firstReplacement (ofRun steps).entries name = identifierCharacters name := by
    rw [entries_ofRun] at hentry ⊢
    obtain ⟨key, hmember, rfl⟩ := List.mem_map.mp hentry
    obtain rfl : key = String.ofList name := hkey
    rw [firstReplacement, lookup_map_entryOf, if_pos hmember, Option.getD_some, identifier,
      String.toList_ofList, String.toList_ofList]
  rw [hreplacement]
  exact writtenPlainly_identifierCharacters hworded

/-- After any registrations of worded names, a formula in ASCII that is rewritten with the registry
holds no registered name of several words as a whole word: none stands alone in it, and the search
for whole words finds none. -/
theorem not_standsAloneIn_withIdentifiers
    (hnames : ∀ step ∈ steps, isWorded step.name.toList = true) {formula : String}
    (hascii : ∀ character ∈ formula.toList, character.toNat < 128) {entry : String × String}
    (hentry : entry ∈ (ofRun steps).entries)
    (hseveral : 1 < (spacedWords entry.1.toList).length) :
    ¬StandsAloneIn entry.1.toList ((ofRun steps).withIdentifiers formula).toList ∧
      containsWord ((ofRun steps).withIdentifiers formula) entry.1 = false := by
  obtain ⟨hname, hlists⟩ := isWorded_of_mem_entries hnames hentry
  have hnone : ¬StandsAloneIn entry.1.toList
      ((ofRun steps).withIdentifiers formula).toList := by
    rintro ⟨front, back, hsplit, halone⟩
    obtain ⟨hbefore, hafter⟩ := (standsAlone_iff (hasPlainEdges_of_isWorded hname) _).mp halone
    have hcut := isCut_parts (ofRun steps).entries formula.toList
    rw [withIdentifiers, substitution, Substitution.apply, String.toList_ofList,
      replace_eq_written_of_isCut hcut] at hsplit
    refine not_written_of_several (fun _ ↦ writtenPlainly_firstReplacement hnames) hlists hname
      hseveral (not_plain_of_not_name hafter) hcut.fit ?_ ?_ hsplit
    · rwa [List.nil_append, hcut.source]
    · rw [lastOr, List.getLast?_nil, Option.or_none]
      exact not_plain_of_not_name hbefore
  exact ⟨hnone, Bool.eq_false_iff.mpr fun hfound ↦ hnone (standsAloneIn_of_containsWord hfound)⟩

/-- Costs of which one name is the beginning, one the end and one a part of others. -/
def costs : List Registration :=
  [.declared "Cost", .declared "Total Cost", .discovered "Cost of Ownership",
    .declared "Total Cost of Ownership", .discovered "of Ownership"]

/-- No cost of several words survives where their names overlap. -/
theorem not_standsAloneIn_costs :
    (∀ step ∈ costs, isWorded step.name.toList = true) ∧
      ("Cost of Ownership", "Cost_of_Ownership") ∈ (ofRun costs).entries ∧
      (ofRun costs).withIdentifiers "Total Cost of Cost of Ownership + Cost of" =
        "Total_Cost of Cost_of_Ownership + Cost of" ∧
      ¬StandsAloneIn "Cost of Ownership".toList
        ((ofRun costs).withIdentifiers "Total Cost of Cost of Ownership + Cost of").toList ∧
      containsWord ((ofRun costs).withIdentifiers "Total Cost of Cost of Ownership + Cost of")
        "Cost of Ownership" = false := by
  have hnames : ∀ step ∈ costs, isWorded step.name.toList = true := by decide +kernel
  have hentry : ("Cost of Ownership", "Cost_of_Ownership") ∈ (ofRun costs).entries := by
    decide +kernel
  refine ⟨hnames, hentry, by decide +kernel,
    not_standsAloneIn_withIdentifiers hnames (isAscii_of_all ?_) hentry ?_⟩ <;> decide +kernel

end Registry

end Formulary.Name
