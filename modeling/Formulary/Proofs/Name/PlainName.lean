import Formulary.Name.WholeWord
import Formulary.Proofs.Substitution.Replacement
import Formulary.Proofs.Text.CharacterClass

/-!
# Where plain names stand

A name that starts and ends with a plain character stands where no character of a word is next to
it: `occursAt_iff` for the names of a substitution, `standsAlone_iff` for whole words. A rule whose
name is an identifier cannot apply where a plain character comes before or where no identifier can
start, so a substitution by such rules keeps the words that are `Unopened`, `replaceFrom_unopened`.
-/

set_option autoImplicit false
set_option relaxedAutoImplicit false

namespace Formulary.Name

open Formulary.Text

/-! ### Plain characters -/

theorem isAscii_of_isPlainCharacter {character : Char}
    (hplain : isPlainCharacter character = true) : character.toNat < 128 := by
  simp only [isPlainCharacter, isPlainStart, isAsciiLetter, isAsciiDigit, Bool.or_eq_true,
    Bool.and_eq_true, decide_eq_true_eq, beq_iff_eq] at hplain
  rcases hplain with ((⟨_, hbound⟩ | ⟨_, hbound⟩) | rfl) | ⟨_, hbound⟩
  · have hcode : character.toNat ≤ 122 := hbound
    omega
  · have hcode : character.toNat ≤ 90 := hbound
    omega
  · decide
  · have hcode : character.toNat ≤ 57 := hbound
    omega

/-- A plain character belongs to names and to words. -/
theorem classes_of_isPlainCharacter {character : Char}
    (hplain : isPlainCharacter character = true) :
    isNameCharacter character = true ∧ isWordCharacter character = true := by
  have hascii := isAscii_of_isPlainCharacter hplain
  rw [isNameCharacter_of_ascii _ hascii, isWordCharacter_of_ascii _ hascii]
  exact ⟨hplain, hplain⟩

theorem all_isPlainCharacter {word : List Char}
    (hascii : ∀ character ∈ word, character.toNat < 128)
    (hname : word.all isNameCharacter = true) : word.all isPlainCharacter = true := by
  rw [List.all_eq_true] at hname ⊢
  intro character hcharacter
  rw [← isNameCharacter_of_ascii _ (hascii _ hcharacter)]
  exact hname _ hcharacter

theorem any_isNameCharacter_of_plain {character? : Option Char}
    (hplain : character?.any isPlainCharacter = true) :
    character?.any isNameCharacter = true ∧ character?.any isWordCharacter = true :=
  ⟨any_imp (fun _ _ hclass ↦ (classes_of_isPlainCharacter hclass).1) hplain,
    any_imp (fun _ _ hclass ↦ (classes_of_isPlainCharacter hclass).2) hplain⟩

/-- What belongs to no word is not plain. -/
theorem not_plain_of_not_word {character? : Option Char}
    (hword : character?.any isWordCharacter = false) :
    character?.any isPlainCharacter = false := by
  refine Bool.eq_false_iff.mpr fun hplain ↦ ?_
  exact Bool.false_ne_true (hword.symm.trans (any_isNameCharacter_of_plain hplain).2)

/-- What belongs to no name is not plain. -/
theorem not_plain_of_not_name {character? : Option Char}
    (hname : character?.any isNameCharacter = false) :
    character?.any isPlainCharacter = false := by
  refine Bool.eq_false_iff.mpr fun hplain ↦ ?_
  exact Bool.false_ne_true (hname.symm.trans (any_isNameCharacter_of_plain hplain).1)

/-- An ASCII character that is not plain belongs neither to names nor to words. -/
theorem classes_of_not_plain {character? : Option Char}
    (hascii : ∀ character ∈ character?, character.toNat < 128)
    (hplain : character?.any isPlainCharacter = false) :
    character?.any isNameCharacter = false ∧ character?.any isWordCharacter = false := by
  cases character? with
  | none => exact ⟨rfl, rfl⟩
  | some character =>
    show isNameCharacter character = false ∧ isWordCharacter character = false
    rw [isNameCharacter_of_ascii _ (hascii character rfl),
      isWordCharacter_of_ascii _ (hascii character rfl)]
    exact ⟨hplain, hplain⟩

/-! ### Names with plain edges -/

/-- Whether a name starts and ends with a plain character. -/
def hasPlainEdges (name : List Char) : Bool :=
  name.head?.any isPlainCharacter && name.getLast?.any isPlainCharacter

variable {name : List Char} {before : Option Char}

theorem ne_nil_of_hasPlainEdges (hedges : hasPlainEdges name = true) : name ≠ [] := by
  rintro rfl
  exact absurd hedges (by decide)

theorem isBlank_of_hasPlainEdges (hedges : hasPlainEdges name = true) : isBlank name = false := by
  obtain ⟨first, others, rfl⟩ := List.exists_cons_of_ne_nil (ne_nil_of_hasPlainEdges hedges)
  rw [hasPlainEdges, Bool.and_eq_true] at hedges
  have hfirst : isPlainCharacter first = true := hedges.1
  exact isBlank_eq_false_iff.mpr ⟨first, List.mem_cons_self,
    isWhiteSpace_of_isNameCharacter (classes_of_isPlainCharacter hfirst).1⟩

/-- A name with plain edges stands where no character of a word is next to it. -/
theorem occursAt_iff (hedges : hasPlainEdges name = true) (text : List Char) :
    occursAt name before text = true ↔
      ∃ rest, text = name ++ rest ∧ before.any isWordCharacter = false ∧
        rest.head?.any isWordCharacter = false := by
  rw [hasPlainEdges, Bool.and_eq_true] at hedges
  obtain ⟨hfirst, hfirstWord⟩ := any_isNameCharacter_of_plain hedges.1
  obtain ⟨hlast, hlastWord⟩ := any_isNameCharacter_of_plain hedges.2
  have hhead (rest : List Char) : (name.head?.or rest.head?).any isWordCharacter = true := by
    cases name with
    | nil => simp at hfirst
    | cons first others => exact hfirstWord
  constructor
  · intro hoccurs
    obtain ⟨rest, rfl⟩ := prefix_of_occursAt hoccurs
    refine ⟨rest, rfl, ?_⟩
    simpa [occursAt, isBoundary, hfirst, hlast, hlastWord, hhead rest] using hoccurs
  · rintro ⟨rest, rfl, hbefore, hafter⟩
    simp [occursAt, isBoundary, hfirst, hlast, hlastWord, hhead rest, hbefore, hafter]

/-- A word stands alone where neither of its edges, if it is a character of names, has another one
next to it. -/
theorem standsAlone_eq_true_iff (word : List Char) (before after : Option Char) :
    standsAlone word before after = true ↔
      (opensName word = true → before.any isNameCharacter = false) ∧
        (closesName word = true → after.any isNameCharacter = false) := by
  rw [standsAlone, Bool.and_eq_true]
  cases opensName word <;> cases closesName word <;> simp

/-- A word with plain edges stands alone where no character of a name is next to it. -/
theorem standsAlone_iff (hedges : hasPlainEdges name = true) (after : Option Char) :
    standsAlone name before after = true ↔
      before.any isNameCharacter = false ∧ after.any isNameCharacter = false := by
  rw [hasPlainEdges, Bool.and_eq_true] at hedges
  obtain ⟨hfirst, _⟩ := any_isNameCharacter_of_plain hedges.1
  obtain ⟨hlast, _⟩ := any_isNameCharacter_of_plain hedges.2
  simp [standsAlone_eq_true_iff, opensName, closesName, hfirst, hlast]

/-! ### Identifiers -/

/-- Whether a text is an identifier: plain characters of which the first one is no digit. -/
def isIdentifier (text : List Char) : Bool :=
  text.head?.any isPlainStart && text.all isPlainCharacter

theorem isPlainCharacter_of_isPlainStart {character : Char}
    (hstart : isPlainStart character = true) : isPlainCharacter character = true := by
  rw [isPlainCharacter, hstart, Bool.true_or]

theorem hasPlainEdges_of_isIdentifier (hname : isIdentifier name = true) :
    hasPlainEdges name = true := by
  rw [isIdentifier, Bool.and_eq_true, List.all_eq_true] at hname
  cases name with
  | nil => simp at hname
  | cons first others =>
    have hlast := hname.2 _ (List.getLast_mem (List.cons_ne_nil first others))
    rw [hasPlainEdges, List.getLast?_eq_some_getLast (List.cons_ne_nil first others)]
    simpa [hname.2 first List.mem_cons_self] using hlast

/-- A word in which no identifier starts that follows no plain character. -/
def Unopened : Option Char → List Char → Prop
  | _, [] => True
  | before, character :: rest =>
    (isPlainStart character = true → before.any isPlainCharacter = true) ∧
      Unopened (some character) rest

theorem unopened_append {front back : List Char} :
    Unopened before (front ++ back) ↔
      Unopened before front ∧ Unopened (lastOr before front) back := by
  induction front generalizing before with
  | nil => simp [Unopened]
  | cons character front ih => rw [List.cons_append, Unopened, Unopened, ih, lastOr_cons, and_assoc]

theorem unopened_of_plain {word : List Char} (hword : word.all isPlainCharacter = true)
    (hbefore : before.any isPlainCharacter = true) : Unopened before word := by
  induction word generalizing before with
  | nil => trivial
  | cons character word ih =>
    rw [List.all_cons, Bool.and_eq_true] at hword
    exact ⟨fun _ ↦ hbefore, ih hword.2 hword.1⟩

theorem unopened_of_no_name {word : List Char} (hnone : word.any isNameCharacter = false) :
    Unopened before word := by
  induction word generalizing before with
  | nil => trivial
  | cons character word ih =>
    rw [List.any_cons, Bool.or_eq_false_iff] at hnone
    refine ⟨fun hstart ↦ ?_, ih hnone.2⟩
    have hname := (classes_of_isPlainCharacter (isPlainCharacter_of_isPlainStart hstart)).1
    exact absurd (hnone.1.symm.trans hname) Bool.false_ne_true

variable {rules : List Rule}

/-- No name that starts like an identifier stands where none can start. -/
theorem not_occursAt_of_unopened (hedges : hasPlainEdges name = true)
    (hfirst : name.head?.any isPlainStart = true) {character : Char} {rest : List Char}
    (hopens : isPlainStart character = true → before.any isPlainCharacter = true) :
    occursAt name before (character :: rest) = false := by
  refine Bool.eq_false_iff.mpr fun hoccurs ↦ ?_
  obtain ⟨behind, htext, hbefore, _⟩ := (occursAt_iff hedges _).mp hoccurs
  cases name with
  | nil => cases hfirst
  | cons first others =>
    obtain rfl : character = first := (List.cons.inj htext).1
    have hword := (any_isNameCharacter_of_plain (hopens hfirst)).2
    rw [hbefore] at hword
    cases hword

/-- A substitution of names that start like identifiers keeps a word that none of them starts
in. -/
theorem replaceFrom_of_unopened
    (hrules : ∀ rule ∈ rules, hasPlainEdges rule.name = true ∧
      rule.name.head?.any isPlainStart = true)
    {word : List Char} (hword : Unopened before word) (rest : List Char) :
    replaceFrom rules before 0 (word ++ rest) =
      word ++ replaceFrom rules (lastOr before word) 0 rest := by
  induction word generalizing before with
  | nil => rfl
  | cons character word ih =>
    have hnone : ∀ rule ∈ rules, occursAt rule.name before (character :: (word ++ rest)) = false :=
      fun rule hrule ↦ not_occursAt_of_unopened (hrules rule hrule).1 (hrules rule hrule).2 hword.1
    rw [List.cons_append, replaceFrom_of_none hnone, ih hword.2, lastOr_cons, List.cons_append]

/-- A substitution of identifiers keeps a word that none of them starts in. -/
theorem replaceFrom_unopened (hrules : ∀ rule ∈ rules, isIdentifier rule.name = true)
    {word : List Char} (hword : Unopened before word) (rest : List Char) :
    replaceFrom rules before 0 (word ++ rest) =
      word ++ replaceFrom rules (lastOr before word) 0 rest := by
  refine replaceFrom_of_unopened (fun rule hrule ↦ ?_) hword rest
  have hname := hrules rule hrule
  refine ⟨hasPlainEdges_of_isIdentifier hname, ?_⟩
  rw [isIdentifier, Bool.and_eq_true] at hname
  exact hname.1

end Formulary.Name
