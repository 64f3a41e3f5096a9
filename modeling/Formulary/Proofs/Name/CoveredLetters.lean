import Formulary.Proofs.Name.FormulaCandidates
import Formulary.Proofs.Text.CharacterLanguage

/-!
# The letters of a formula and its candidates

The candidates of a formula are looked for among its runs, so a name can be found only if its
letters lie in one. By the main statement, `runs_cover_letters`, no ASCII letter and no underscore
escapes: the runs stand apart from left to right, each is words with white space between them,
`phraseTexts`, and goes on as far as it can. What holds of the cut of a formula into pieces is
carried over to the positions of its runs by induction on the cut.
-/

set_option autoImplicit false
set_option relaxedAutoImplicit false

namespace Formulary.Name

open Computability
open Formulary.Text

variable {text whole word tail rest : List Char} {cut : List Piece} {position index : Nat}
  {passage : Passage} {character : Char}

/-! ### The form of a run -/

/-- White space and a word, any number of times. -/
def furtherWords : Language Char :=
  (someOf isWhiteSpace * someOf isPlainCharacter)∗

/-- The texts of words of plain characters with white space between them, of which the first one
starts with a letter or an underscore. -/
def phraseTexts : Language Char :=
  oneOf isPlainStart * ((oneOf isPlainCharacter)∗ * furtherWords)

theorem isClean_of_isPlainCharacter (hplain : isPlainCharacter character = true) :
    isClean character = true := by
  rw [isClean, hplain, Bool.true_or]

theorem getLast?_append_of_word (hword : word ∈ someOf isPlainCharacter)
    (htail : tail ≠ [] → tail.getLast?.any isPlainCharacter = true) :
    (word ++ tail).getLast?.any isPlainCharacter = true := by
  obtain ⟨hsome, hplain⟩ := mem_someOf.mp hword
  rw [List.all_eq_true] at hplain
  by_cases hnone : tail = []
  · rw [hnone, List.append_nil, List.getLast?_eq_some_getLast hsome]
    exact hplain _ (List.getLast_mem hsome)
  · rw [List.getLast?_append_of_ne_nil _ hnone]
    exact htail hnone

/-- Further words are clean, and the last of them ends with a plain character. -/
theorem clean_of_mem_furtherWords (htail : tail ∈ furtherWords) :
    (∀ character ∈ tail, isClean character = true) ∧
      (tail ≠ [] → tail.getLast?.any isPlainCharacter = true) := by
  obtain ⟨parts, rfl, hparts⟩ := Language.mem_kstar.mp htail
  clear htail
  induction parts with
  | nil => simp
  | cons part parts ih =>
    obtain ⟨hpart, hlater⟩ := List.forall_mem_cons.mp hparts
    obtain ⟨gap, hgap, word, hword, rfl⟩ := Language.mem_mul.mp hpart
    obtain ⟨-, hwhite⟩ := mem_someOf.mp hgap
    have hplain := (mem_someOf.mp hword).2
    rw [List.all_eq_true] at hwhite hplain
    obtain ⟨hclean, hlast⟩ := ih hlater
    refine ⟨?_, fun _ ↦ ?_⟩
    · simp only [List.flatten_cons, List.mem_append]
      rintro character ((hcharacter | hcharacter) | hcharacter)
      · rw [isClean, hwhite character hcharacter, Bool.or_true]
      · exact isClean_of_isPlainCharacter (hplain character hcharacter)
      · exact hclean character hcharacter
    · have hend := getLast?_append_of_word hword hlast
      have hsome : word ++ parts.flatten ≠ [] := by
        intro hnone
        rw [hnone] at hend
        cases hend
      rwa [List.flatten_cons, List.append_assoc, List.getLast?_append_of_ne_nil _ hsome]

/-- Clean characters of which the last is plain are a word that white space may stand before, and
further words. -/
theorem exists_words_of_clean (hclean : ∀ character ∈ text, isClean character = true)
    (hlast : text.getLast?.any isPlainCharacter = true) :
    ∃ gap word tail, text = gap ++ (word ++ tail) ∧ gap.all isWhiteSpace = true ∧
      word ∈ someOf isPlainCharacter ∧ tail ∈ furtherWords := by
  induction text with
  | nil => cases hlast
  | cons first text ih =>
    obtain ⟨hfirst, hlater⟩ := List.forall_mem_cons.mp hclean
    cases text with
    | nil =>
      exact ⟨[], [first], [], rfl, rfl, cons_mem_someOf.mpr ⟨hlast, rfl⟩,
        Language.nil_mem_kstar _⟩
    | cons second others =>
      rw [List.getLast?_cons_cons] at hlast
      obtain ⟨gap, word, tail, hsplit, hgap, hword, htail⟩ := ih hlater hlast
      rw [hsplit]
      rw [isClean, Bool.or_eq_true] at hfirst
      rcases hfirst with hplain | hwhite
      · cases gap with
        | nil =>
          have hlonger := cons_mem_someOf.mpr ⟨hplain, (mem_someOf.mp hword).2⟩
          exact ⟨[], first :: word, tail, rfl, rfl, hlonger, htail⟩
        | cons space gap =>
          -- the plain character ends its word here, so the word behind the gap is a further one
          refine ⟨[], [first], space :: gap ++ (word ++ tail), rfl, rfl,
            cons_mem_someOf.mpr ⟨hplain, rfl⟩, ?_⟩
          have hpart := Language.append_mem_mul (mem_someOf.mpr ⟨List.cons_ne_nil _ _, hgap⟩) hword
          obtain ⟨parts, rfl, hparts⟩ := Language.mem_kstar.mp htail
          rw [← List.append_assoc, ← List.flatten_cons]
          exact Language.join_mem_kstar (List.forall_mem_cons.mpr ⟨hpart, hparts⟩)
      · have hspaces : (first :: gap).all isWhiteSpace = true := by
          rw [List.all_cons, hwhite, hgap]
          rfl
        exact ⟨first :: gap, word, tail, rfl, hspaces, hword, htail⟩

/-- Runs are the texts of this form. -/
theorem mem_phraseTexts_iff : text ∈ phraseTexts ↔ isRun text = true := by
  rw [phraseTexts, mem_oneOf_mul, isRun_iff]
  constructor
  · rintro ⟨first, _, hfirst, hrest, rfl⟩
    obtain ⟨letters, hletters, tail, htail, rfl⟩ := Language.mem_mul.mp hrest
    rw [mem_kstar_oneOf] at hletters
    obtain ⟨hclean, hlast⟩ := clean_of_mem_furtherWords htail
    have hword : first :: letters ∈ someOf isPlainCharacter :=
      cons_mem_someOf.mpr ⟨isPlainCharacter_of_isPlainStart hfirst, hletters⟩
    rw [← List.cons_append]
    refine ⟨hfirst, getLast?_append_of_word hword hlast, ?_⟩
    refine List.forall_mem_append.mpr ⟨fun character hcharacter ↦ ?_, hclean⟩
    exact isClean_of_isPlainCharacter (List.all_eq_true.mp (mem_someOf.mp hword).2 _ hcharacter)
  · rintro ⟨hfirst, hlast, hclean⟩
    obtain ⟨gap, word, tail, rfl, hgap, hword, htail⟩ := exists_words_of_clean hclean hlast
    obtain ⟨first, letters, rfl⟩ := List.exists_cons_of_ne_nil (mem_someOf.mp hword).1
    cases gap with
    | cons space gap =>
      rw [List.all_cons, Bool.and_eq_true] at hgap
      have hother := isPlainStart_of_not_plain (isPlainCharacter_of_isWhiteSpace hgap.1)
      exact absurd (hother.symm.trans hfirst) Bool.false_ne_true
    | nil =>
      have hletters := mem_kstar_oneOf.mpr (cons_mem_someOf.mp hword).2
      exact ⟨first, letters ++ tail, hfirst, Language.append_mem_mul hletters htail, rfl⟩

/-! ### Where the runs stand -/

theorem le_position_of_mem_runsAt (hpassage : passage ∈ runsAt position cut) :
    position ≤ passage.position := by
  induction cut generalizing position with
  | nil => cases hpassage
  | cons piece cut ih =>
    cases piece with
    | other character => exact (Nat.le_add_right _ 1).trans (ih hpassage)
    | run word =>
      rcases List.mem_cons.mp hpassage with rfl | hlater
      · exact Nat.le_refl position
      · exact (Nat.le_add_right _ _).trans (ih hlater)

/-- The text behind the beginning of another one. -/
theorem drop_add_of_drop_eq (front : List Char) (hwhole : whole.drop position = front ++ rest) :
    whole.drop (position + front.length) = rest := by
  rw [← List.drop_drop, hwhole, List.drop_left]

/-- The runs of a text stand apart from left to right. -/
theorem Dissects.inOrder (hcut : Dissects cut text) (hwhole : whole.drop position = text) :
    InOrder whole (runsAt position cut) := by
  induction hcut generalizing position with
  | nil => exact inOrder_nil whole
  | @other character others rest _ _ ih =>
    exact ih (drop_add_of_drop_eq [character] hwhole)
  | @run word others rest hrun _ _ ih =>
    refine (ih (drop_add_of_drop_eq word hwhole)).cons ?_ ?_ fun _ ↦ le_position_of_mem_runsAt
    · rw [hwhole]
      exact List.prefix_append word rest
    · exact ne_nil_of_hasPlainEdges (hasPlainEdges_of_isRun hrun)

/-- What stands where a run of a text is said to is a run, and it ends there. -/
theorem Dissects.run_of_mem_runsAt (hcut : Dissects cut text) (hwhole : whole.drop position = text)
    (hpassage : passage ∈ runsAt position cut) :
    Name.isRun passage.characters = true ∧ EndsRun (whole.drop passage.finish) := by
  induction hcut generalizing position with
  | nil => cases hpassage
  | @other character others rest _ _ ih =>
    exact ih (drop_add_of_drop_eq [character] hwhole) hpassage
  | @run word others rest hrun hends _ ih =>
    have hbehind := drop_add_of_drop_eq word hwhole
    rcases List.mem_cons.mp hpassage with rfl | hlater
    · exact ⟨hrun, hbehind.symm ▸ hends⟩
    · exact ih hbehind hlater

/-- Whatever can start a run lies in one. -/
theorem Dissects.exists_covers (hcut : Dissects cut text) (hwhole : whole.drop position = text)
    (hindex : position ≤ index) (hcharacter : whole[index]? = some character)
    (hstart : isPlainStart character = true) :
    ∃ passage ∈ runsAt position cut, passage.Covers index := by
  induction hcut generalizing position with
  | nil =>
    have hlength := List.drop_eq_nil_iff.mp hwhole
    rw [List.getElem?_eq_none (hlength.trans hindex)] at hcharacter
    cases hcharacter
  | @other other others rest hother _ ih =>
    refine ih (drop_add_of_drop_eq [other] hwhole) (Nat.lt_of_le_of_ne hindex ?_)
    rintro rfl
    rw [← List.head?_drop, hwhole] at hcharacter
    obtain rfl : other = character := Option.some.inj hcharacter
    exact Bool.false_ne_true (hother.symm.trans hstart)
  | @run word others rest hrun hends _ ih =>
    by_cases hinside : index < position + word.length
    · exact ⟨⟨position, word⟩, List.mem_cons_self, hindex, hinside⟩
    · obtain ⟨passage, hpassage, hcovers⟩ :=
        ih (drop_add_of_drop_eq word hwhole) (Nat.le_of_not_lt hinside)
      exact ⟨passage, List.mem_cons_of_mem _ hpassage, hcovers⟩

/-- The runs of a formula stand apart from left to right, and each ASCII letter and each underscore
of the formula lies in one of them. A run is words of ASCII letters, digits and underscores with
white space between them, of which the first one does not start with a digit, and it goes on as far
as it can: neither such a character nor white space and then such a character stands behind it. The
candidates are the runs that are neither reserved nor among the further words to leave out. -/
theorem runs_cover_letters (formula : String) (reserved : List String) :
    ∃ passages, InOrder formula.toList passages ∧
      passages.map Passage.characters = runs formula.toList ∧
      (∀ index character, formula.toList[index]? = some character →
        isPlainStart character = true → ∃! passage, passage ∈ passages ∧ passage.Covers index) ∧
      (∀ passage ∈ passages, passage.characters ∈ phraseTexts ∧
        ∀ gap character behind, formula.toList.drop passage.finish = gap ++ character :: behind →
          gap.all isWhiteSpace = true → isPlainCharacter character = false) ∧
      candidates formula reserved =
        (passages.map Passage.text).filter fun name ↦ name ∉ reservedWords ∧ name ∉ reserved := by
  have hcut := dissects_pieces formula.toList
  have hwhole : formula.toList.drop 0 = formula.toList := rfl
  have hruns : (runsAt 0 (pieces formula.toList)).map Passage.characters = runs formula.toList := by
    rw [map_characters_runsAt, runs_eq_of_dissects hcut]
  refine ⟨_, hcut.inOrder hwhole, hruns, fun index character hcharacter hstart ↦ ?_,
    fun passage hpassage ↦ ?_, ?_⟩
  · obtain ⟨passage, hpassage, hcovers⟩ :=
      hcut.exists_covers hwhole (Nat.zero_le index) hcharacter hstart
    exact (hcut.inOrder hwhole).existsUnique_covers hpassage hcovers
  · obtain ⟨hrun, hends⟩ := hcut.run_of_mem_runsAt hwhole hpassage
    refine ⟨mem_phraseTexts_iff.mpr hrun, fun gap character behind hbehind hwhite ↦ ?_⟩
    rw [hbehind] at hends
    exact ((endsRun_append_of_white hwhite).mp hends).head?
  · rw [candidates, ← hruns, List.map_map]
    refine List.filter_congr fun name _ ↦ ?_
    simp

/-- A letter beyond ASCII is part of no run, and what stands before and behind it is. -/
example : candidates "Wärme_2 kWh * 2e5 / Years" ["Years"] = ["W", "rme_2 kWh", "e5"] := by
  decide +kernel

end Formulary.Name
