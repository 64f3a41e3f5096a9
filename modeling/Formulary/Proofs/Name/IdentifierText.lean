import Formulary.Proofs.Name.CandidateRuns
import Formulary.Proofs.Name.PlainAlias
import Mathlib.Data.List.Chain

/-!
# The text of an identifier

An identifier holds no separators but single underscores between other characters, so it is its own
identifier, `identifierCharacters_idem`. It is empty exactly for names that hold separators only,
`identifierCharacters_eq_nil_iff`, and the identifier of a clean name is plain throughout,
`all_plain_identifierCharacters`.
-/

set_option autoImplicit false
set_option relaxedAutoImplicit false

namespace Formulary.Name

open Formulary.Text

variable {inClass : Char → Bool} {mark character : Char} {text word : List Char}

/-! ### Collapsed runs -/

/-- Whether the only characters of a class in a text are single marks. -/
structure Tight (inClass : Char → Bool) (mark : Char) (text : List Char) : Prop where
  apart : text.IsChain fun first second ↦ ¬(inClass first = true ∧ inClass second = true)
  marks : ∀ character ∈ text, inClass character = true → character = mark

theorem head?_collapseFrom_true (text : List Char) :
    (collapseFrom inClass mark true text).head?.any inClass = false := by
  induction text with
  | nil => rfl
  | cons character text ih =>
    rw [collapseFrom]
    split
    · exact ih
    · rename_i hother
      exact Bool.eq_false_iff.mpr hother

theorem tight_collapseFrom (inside : Bool) (text : List Char) :
    Tight inClass mark (collapseFrom inClass mark inside text) := by
  induction text generalizing inside with
  | nil => exact ⟨List.IsChain.nil, fun _ hmember ↦ absurd hmember List.not_mem_nil⟩
  | cons character text ih =>
    rw [collapseFrom]
    split
    · split
      · exact ih true
      · refine ⟨List.isChain_cons.mpr ⟨fun next hnext hboth ↦ ?_, (ih true).apart⟩, ?_⟩
        · have hclear := @head?_collapseFrom_true inClass mark text
          rw [Option.mem_def.mp hnext] at hclear
          exact Bool.false_ne_true (hclear.symm.trans hboth.2)
        · intro other hother hclass
          rcases List.mem_cons.mp hother with rfl | hlater
          · rfl
          · exact (ih true).marks other hlater hclass
    · rename_i hout
      refine ⟨List.isChain_cons.mpr ⟨fun _ _ hboth ↦ hout hboth.1, (ih false).apart⟩, ?_⟩
      intro other hother hclass
      rcases List.mem_cons.mp hother with rfl | hlater
      · exact absurd hclass hout
      · exact (ih false).marks other hlater hclass

/-- A tight text has no runs to collapse. -/
theorem collapseFrom_of_tight (htight : Tight inClass mark text) {inside : Bool}
    (hinside : inside = true → text.head?.any inClass = false) :
    collapseFrom inClass mark inside text = text := by
  induction text generalizing inside with
  | nil => rfl
  | cons character text ih =>
    obtain ⟨hnext, hapart⟩ := List.isChain_cons.mp htight.apart
    have hrest : Tight inClass mark text :=
      ⟨hapart, fun other hother ↦ htight.marks other (List.mem_cons_of_mem character hother)⟩
    rw [collapseFrom]
    split
    · rename_i hclass
      have hmark := htight.marks character List.mem_cons_self hclass
      have hclear : text.head?.any inClass = false := by
        cases hhead : text.head? with
        | none => rfl
        | some next =>
          have hother := hnext next hhead
          exact Bool.eq_false_iff.mpr fun hnextClass ↦ hother ⟨hclass, hnextClass⟩
      split
      · rename_i hin
        have hfirst : inClass character = false := hinside hin
        exact absurd (hfirst.symm.trans hclass) Bool.false_ne_true
      · rw [ih hrest fun _ ↦ hclear, hmark]
    · rw [ih hrest fun h ↦ absurd h Bool.false_ne_true]

/-- Collapsing keeps the characters outside of the class. -/
theorem mem_collapseFrom_of_not_mem_class (hother : inClass character = false) {inside : Bool} :
    character ∈ text → character ∈ collapseFrom inClass mark inside text := by
  induction text generalizing inside with
  | nil => exact fun hmember ↦ hmember
  | cons first text ih =>
    intro hmember
    rw [collapseFrom]
    rcases List.mem_cons.mp hmember with rfl | hlater
    · rw [if_neg (Bool.eq_false_iff.mp hother)]
      exact List.mem_cons_self
    · split
      · split
        · exact ih hlater
        · exact List.mem_cons_of_mem mark (ih hlater)
      · exact List.mem_cons_of_mem first (ih hlater)

theorem collapseRuns_ne_nil (htext : text ≠ []) : collapseRuns inClass mark text ≠ [] := by
  obtain ⟨character, rest, rfl⟩ := List.exists_cons_of_ne_nil htext
  rw [collapseRuns, collapseFrom]
  split
  · exact List.cons_ne_nil _ _
  · exact List.cons_ne_nil _ _

/-- What is collapsed of a beginning is a beginning of what is collapsed of the whole. -/
theorem isPrefix_collapseFrom (inside : Bool) (front back : List Char) :
    collapseFrom inClass mark inside front <+:
      collapseFrom inClass mark inside (front ++ back) := by
  induction front generalizing inside with
  | nil => exact List.nil_prefix
  | cons character front ih =>
    rw [List.cons_append, collapseFrom, collapseFrom]
    split
    · split
      · exact ih true
      · exact (List.prefix_append_right_inj [mark]).mpr (ih true)
    · exact (List.prefix_append_right_inj [character]).mpr (ih false)

/-- Two texts of which the second does not start in the class are collapsed one by one. -/
theorem collapseFrom_append (inside : Bool) (front : List Char) {back : List Char}
    (hback : back.head?.any inClass = false) :
    collapseFrom inClass mark inside (front ++ back) =
      collapseFrom inClass mark inside front ++ collapseRuns inClass mark back := by
  induction front generalizing inside with
  | nil =>
    cases back with
    | nil => rfl
    | cons character back =>
      have hother : inClass character = false := hback
      simp [collapseRuns, collapseFrom, hother]
  | cons character front ih =>
    rw [List.cons_append, collapseFrom, collapseFrom]
    split
    · split
      · exact ih true
      · rw [ih true, List.cons_append]
    · rw [ih false, List.cons_append]

/-- A last character outside of the class stays the last one. -/
theorem getLast?_collapseRuns (hlast : text.getLast?.any inClass = false) :
    (collapseRuns inClass mark text).getLast? = text.getLast? := by
  rcases List.eq_nil_or_concat text with rfl | ⟨front, last, rfl⟩
  · rfl
  · have hother : ([last].head?).any inClass = false := by simpa using hlast
    have hend : ¬inClass last = true := by simpa using hother
    rw [collapseRuns, List.concat_eq_append, collapseFrom_append false front hother, collapseRuns,
      collapseFrom, if_neg hend, collapseFrom, List.getLast?_concat, List.getLast?_concat]

/-! ### Marks at the ends -/

theorem strip_eq_rdropWhile (mark : Char) (text : List Char) :
    strip mark text = (text.dropWhile (· == mark)).rdropWhile (· == mark) := rfl

theorem strip_infix (mark : Char) (text : List Char) : strip mark text <:+: text := by
  rw [strip_eq_rdropWhile]
  exact (List.rdropWhile_prefix _ _).isInfix.trans (List.dropWhile_suffix _).isInfix

theorem dropWhile_eq_self_of_head? (hfirst : text.head?.any inClass = false) :
    text.dropWhile inClass = text := by
  cases text with
  | nil => rfl
  | cons first text => exact List.dropWhile_cons_of_neg (Bool.eq_false_iff.mp hfirst)

theorem rdropWhile_eq_self_of_getLast? (hlast : text.getLast?.any inClass = false) :
    text.rdropWhile inClass = text := by
  refine List.rdropWhile_eq_self_iff.mpr fun hnonempty hhere ↦ ?_
  rw [List.getLast?_eq_some_getLast hnonempty] at hlast
  exact Bool.false_ne_true (hlast.symm.trans hhere)

/-- A text is what is left of it between what is dropped at its ends. -/
theorem exists_ends (inClass : Char → Bool) (text : List Char) :
    ∃ front back, (∀ character ∈ front, inClass character = true) ∧
      (∀ character ∈ back, inClass character = true) ∧
      text = front ++ (text.dropWhile inClass).rdropWhile inClass ++ back := by
  refine ⟨text.takeWhile inClass, (text.dropWhile inClass).rtakeWhile inClass,
    fun character hmember ↦ List.mem_takeWhile_imp hmember,
    fun character hmember ↦ List.mem_rtakeWhile_imp hmember, ?_⟩
  rw [List.append_assoc, List.rdropWhile_append_rtakeWhile, List.takeWhile_append_dropWhile]

/-- What is left of a text has nothing of the class at its ends. -/
theorem ends_dropWhile (inClass : Char → Bool) (text : List Char) :
    ((text.dropWhile inClass).rdropWhile inClass).head?.any inClass = false ∧
      ((text.dropWhile inClass).rdropWhile inClass).getLast?.any inClass = false := by
  constructor
  · obtain ⟨behind, hbehind⟩ := List.rdropWhile_prefix inClass (text.dropWhile inClass)
    have hclear := head?_dropWhile_any inClass text
    cases hhead : ((text.dropWhile inClass).rdropWhile inClass).head? with
    | none => rfl
    | some first =>
      rw [← hbehind, List.head?_append, hhead] at hclear
      exact hclear
  · rw [List.rdropWhile, List.getLast?_reverse]
    exact head?_dropWhile_any inClass _

/-- Nothing is left of a mark at the ends of what it is taken off. -/
theorem ends_strip (mark : Char) (text : List Char) :
    (strip mark text).head? ≠ some mark ∧ (strip mark text).getLast? ≠ some mark := by
  obtain ⟨hfirst, hlast⟩ := ends_dropWhile (· == mark) text
  rw [← strip_eq_rdropWhile] at hfirst hlast
  constructor
  · intro hmark
    simp [hmark] at hfirst
  · intro hmark
    simp [hmark] at hlast

/-- Without a mark at either end there is none to take off. -/
theorem strip_eq_self (hfirst : text.head? ≠ some mark) (hlast : text.getLast? ≠ some mark) :
    strip mark text = text := by
  have hother {character? : Option Char} (hnone : character? ≠ some mark) :
      character?.any (· == mark) = false := by
    cases character? with
    | none => rfl
    | some character => simpa using hnone
  rw [strip_eq_rdropWhile, dropWhile_eq_self_of_head? (hother hfirst),
    rdropWhile_eq_self_of_getLast? (hother hlast)]

/-- Taking a mark off both ends leaves none there. -/
theorem strip_strip (mark : Char) (text : List Char) :
    strip mark (strip mark text) = strip mark text := by
  rw [strip_eq_rdropWhile mark text]
  have hclear : ((text.dropWhile (· == mark)).rdropWhile (· == mark)).head?.any (· == mark) =
      false := by
    obtain ⟨behind, hbehind⟩ :=
      List.rdropWhile_prefix (· == mark) (text.dropWhile (· == mark))
    have hfirst := head?_dropWhile_any (· == mark) text
    generalize (text.dropWhile (· == mark)).rdropWhile (· == mark) = kept at hbehind ⊢
    cases kept with
    | nil => rfl
    | cons first others => rwa [← hbehind] at hfirst
  rw [strip_eq_rdropWhile, dropWhile_eq_self_of_head? hclear, List.rdropWhile_idempotent]

/-- Taking a mark off both ends keeps every other character. -/
theorem mem_strip_of_ne (hother : character ≠ mark) (hmember : character ∈ text) :
    character ∈ strip mark text := by
  have hkept {part : List Char} (hpart : character ∈ part) :
      character ∈ part.dropWhile (· == mark) := by
    rw [← List.takeWhile_append_dropWhile (p := (· == mark)) (l := part), List.mem_append] at hpart
    refine hpart.resolve_left fun htaken ↦ hother ?_
    exact beq_iff_eq.mp (List.mem_takeWhile_imp (p := (· == mark)) htaken)
  rw [strip, List.mem_reverse]
  exact hkept (List.mem_reverse.mpr (hkept hmember))

/-! ### Separators -/

theorem isSeparator_of_isWhiteSpace (hwhite : isWhiteSpace character = true) :
    isSeparator character = true := by
  rw [isSeparator, hwhite]
  rfl

theorem isSeparator_of_isGap (hgap : isGap character = true) : isSeparator character = true := by
  rw [isGap, Bool.or_eq_true] at hgap
  rcases hgap with hwhite | hmark
  · exact isSeparator_of_isWhiteSpace hwhite
  · rw [isSeparator, hmark, Bool.or_true]

/-! ### Identifiers -/

theorem tight_identifierCharacters (name : List Char) :
    Tight isSeparator '_' (identifierCharacters name) := by
  have htight := @tight_collapseFrom isSeparator '_' false name
  have hpart := strip_infix '_' (collapseFrom isSeparator '_' false name)
  have hapart := List.IsChain.infix htight.apart hpart
  exact ⟨hapart, fun other hother ↦ htight.marks other (hpart.subset hother)⟩

/-- An identifier has no runs of separators of any class to collapse. -/
theorem collapseRuns_identifierCharacters
    (hclass : ∀ character, inClass character = true → isSeparator character = true)
    (name : List Char) :
    collapseRuns inClass '_' (identifierCharacters name) = identifierCharacters name := by
  obtain ⟨hapart, hmarks⟩ := tight_identifierCharacters name
  refine collapseFrom_of_tight ⟨?_, fun character hmember hhere ↦ ?_⟩
    fun h ↦ absurd h Bool.false_ne_true
  · exact hapart.imp fun _ _ hnone hboth ↦ hnone ⟨hclass _ hboth.1, hclass _ hboth.2⟩
  · exact hmarks character hmember (hclass character hhere)

/-- The identifier of an identifier is the identifier itself. -/
theorem identifierCharacters_idem (name : List Char) :
    identifierCharacters (identifierCharacters name) = identifierCharacters name := by
  rw [identifierCharacters, collapseRuns_identifierCharacters fun _ hseparator ↦ hseparator]
  exact strip_strip '_' _

theorem identifier_identifier (name : String) : identifier (identifier name) = identifier name := by
  rw [identifier, identifier, String.toList_ofList, identifierCharacters_idem]

/-- The names without an identifier are those that hold separators only. -/
theorem identifierCharacters_eq_nil_iff (name : List Char) :
    identifierCharacters name = [] ↔ ∀ character ∈ name, isSeparator character = true := by
  constructor
  · intro hnone character hmember
    by_contra hother
    have hkept : character ∈ collapseRuns isSeparator '_' name :=
      mem_collapseFrom_of_not_mem_class (Bool.eq_false_iff.mpr hother) hmember
    have hmark : character ≠ '_' := by
      rintro rfl
      exact hother (by decide)
    have hinside : character ∈ identifierCharacters name := mem_strip_of_ne hmark hkept
    rw [hnone] at hinside
    cases hinside
  · intro hseparators
    refine List.eq_nil_iff_forall_not_mem.mpr fun character hmember ↦ ?_
    have hblank : ∀ other ∈ collapseRuns isSeparator '_' name, (other == '_') = true := by
      intro other hother
      rcases mem_collapseFrom hother with rfl | ⟨hname, hout⟩
      · rfl
      · rw [hseparators other hname] at hout
        cases hout
    have hempty : (collapseRuns isSeparator '_' name).dropWhile (· == '_') = [] :=
      List.dropWhile_eq_nil_iff.mpr hblank
    rw [identifierCharacters, strip, hempty] at hmember
    cases hmember

/-- A name with an identifier is not blank. -/
theorem isBlank_of_identifierCharacters_ne_nil {name : List Char}
    (hsome : identifierCharacters name ≠ []) : isBlank name = false := by
  refine Bool.eq_false_iff.mpr fun hblank ↦ hsome ?_
  exact (identifierCharacters_eq_nil_iff name).mpr fun character hmember ↦
    isSeparator_of_isWhiteSpace (List.all_eq_true.mp hblank character hmember)

/-- The identifier of a clean name is plain throughout. -/
theorem all_plain_identifierCharacters (hclean : ∀ character ∈ word, isClean character = true) :
    ∀ character ∈ identifierCharacters word, isPlainCharacter character = true := by
  intro character hmember
  rcases mem_collapseFrom (mem_strip hmember) with rfl | ⟨hword, hother⟩
  · decide
  · have hhere := hclean character hword
    rw [isClean, Bool.or_eq_true] at hhere
    refine hhere.resolve_right fun hwhite ↦ ?_
    rw [isSeparator, hwhite] at hother
    cases hother

/-- The words of the formula language are their own identifiers. -/
theorem identifierCharacters_of_mem_reservedWords {reserved : String}
    (hreserved : reserved ∈ reservedWords) :
    identifierCharacters reserved.toList = reserved.toList ∧
      reserved.toList.all isPlainCharacter = true ∧ reserved.toList ≠ [] := by
  have hall : ∀ reserved ∈ reservedWords,
      identifierCharacters reserved.toList = reserved.toList ∧
        reserved.toList.all isPlainCharacter = true ∧ reserved.toList ≠ [] := by decide +kernel
  exact hall reserved hreserved

end Formulary.Name
