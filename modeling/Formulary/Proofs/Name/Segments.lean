import Formulary.Proofs.Name.IdentifierText

/-!
# The segments of a name

The segments of a name are its longest pieces without separators. `HasSegments` describes them by
the text alone, and `hasSegments_iff` says that `segments` finds them. All about segments follows
from what a separator does to them, `segments_append_cons`: it ends one and belongs to none. So they
stay the same when runs of separators are collapsed, `segments_collapseFrom`, and when separators
are taken off the ends, `segments_between`; and a name in which all separators are single
underscores between other characters is its segments joined by underscores. Hence the identifier of
a name joins the segments of the name, `identifier_joins_segments`, and names have the same
identifier exactly if they have the same segments.
-/

set_option autoImplicit false
set_option relaxedAutoImplicit false

namespace Formulary.Name

open Formulary.Text

/-! ### Cutting at separators -/

/-- A text that is not empty and holds no separators. -/
structure IsSegment (piece : List Char) : Prop where
  nonempty : piece ≠ []
  free : ∀ character ∈ piece, isSeparator character = false

/-- The longest pieces of a text without separators, from the front to the back: a piece ends with
the text or at a separator, and between the pieces are separators only. -/
inductive HasSegments : List Char → List (List Char) → Prop
  | nil : HasSegments [] []
  | separator {character rest pieces} (hseparator : isSeparator character = true)
      (hrest : HasSegments rest pieces) : HasSegments (character :: rest) pieces
  | last {piece} (hpiece : IsSegment piece) : HasSegments piece [piece]
  | piece {piece character rest pieces} (hpiece : IsSegment piece)
      (hseparator : isSeparator character = true) (hrest : HasSegments rest pieces) :
      HasSegments (piece ++ character :: rest) (piece :: pieces)

variable {character mark : Char} {text piece front back : List Char}
variable {pieces : List (List Char)} {inClass : Char → Bool}

@[simp]
theorem segments_nil : segments [] = [] := rfl

/-- A separator ends a segment and belongs to none. -/
theorem segments_append_cons (hseparator : isSeparator character = true)
    (front back : List Char) :
    segments (front ++ character :: back) = segments front ++ segments back := by
  rw [segments, segments, segments, List.splitOnP_append_cons front back hseparator,
    List.filter_append]

theorem segments_cons (hseparator : isSeparator character = true) (text : List Char) :
    segments (character :: text) = segments text :=
  segments_append_cons hseparator [] text

theorem segments_of_isSegment (hpiece : IsSegment piece) : segments piece = [piece] := by
  rw [segments, List.splitOnP_eq_singleton hpiece.free]
  simp [hpiece.nonempty]

theorem segments_eq_of_hasSegments (hcut : HasSegments text pieces) : segments text = pieces := by
  induction hcut with
  | nil => rfl
  | separator hseparator _ ih => rw [segments_cons hseparator, ih]
  | last hpiece => exact segments_of_isSegment hpiece
  | piece hpiece hseparator _ ih =>
    rw [segments_append_cons hseparator, segments_of_isSegment hpiece, ih]
    rfl

theorem hasSegments_segments (text : List Char) : HasSegments text (segments text) := by
  -- a segment that was begun is carried along until the next separator
  suffices hbegun : ∀ piece : List Char, (∀ character ∈ piece, isSeparator character = false) →
      HasSegments (piece ++ text) (segments (piece ++ text)) from
    hbegun [] fun _ hmember ↦ absurd hmember List.not_mem_nil
  induction text with
  | nil =>
    intro piece hfree
    rw [List.append_nil]
    by_cases hempty : piece = []
    · exact hempty ▸ HasSegments.nil
    · rw [segments_of_isSegment ⟨hempty, hfree⟩]
      exact HasSegments.last ⟨hempty, hfree⟩
  | cons character text ih =>
    intro piece hfree
    cases hcharacter : isSeparator character with
    | false =>
      rw [List.append_cons]
      refine ih _ fun other hother ↦ ?_
      rcases List.mem_append.mp hother with hpiece | hnew
      · exact hfree other hpiece
      · rwa [List.mem_singleton.mp hnew]
    | true =>
      have hrest : HasSegments text (segments text) :=
        ih [] fun _ hmember ↦ absurd hmember List.not_mem_nil
      rw [segments_append_cons hcharacter]
      by_cases hempty : piece = []
      · rw [hempty]
        exact HasSegments.separator hcharacter hrest
      · rw [segments_of_isSegment ⟨hempty, hfree⟩]
        exact HasSegments.piece ⟨hempty, hfree⟩ hcharacter hrest

/-- The segments of a text are its longest pieces without separators. -/
theorem hasSegments_iff : HasSegments text pieces ↔ pieces = segments text :=
  ⟨fun hcut ↦ (segments_eq_of_hasSegments hcut).symm, fun hsame ↦ hsame ▸ hasSegments_segments text⟩

/-! ### Changes of the separators -/

/-- Separators at the ends of a text are in no segment. -/
theorem segments_between (hfront : ∀ character ∈ front, isSeparator character = true)
    (hback : ∀ character ∈ back, isSeparator character = true) (text : List Char) :
    segments (front ++ text ++ back) = segments text := by
  induction front with
  | nil =>
    rw [List.nil_append]
    induction back using List.reverseRecOn with
    | nil => rw [List.append_nil]
    | append_singleton back last ih =>
      have hmore : ∀ character ∈ back, isSeparator character = true :=
        fun character hmember ↦ hback character (List.mem_append_left _ hmember)
      rw [← List.append_assoc, segments_append_cons (hback last (by simp)), segments_nil,
        List.append_nil, ih hmore]
  | cons first front ih =>
    rw [List.cons_append, List.cons_append, segments_cons (hfront first List.mem_cons_self),
      ih fun character hmember ↦ hfront character (List.mem_cons_of_mem first hmember)]

/-- Collapsing runs of separators of a class keeps the segments, whatever the text stands behind. -/
theorem segments_collapseFrom (hmark : isSeparator mark = true)
    (hclass : ∀ character, inClass character = true → isSeparator character = true)
    {inside : Bool} (front : List Char) (hinside : inside = true → front = []) (text : List Char) :
    segments (front ++ collapseFrom inClass mark inside text) = segments (front ++ text) := by
  induction text generalizing front inside with
  | nil => rfl
  | cons character text ih =>
    rw [collapseFrom]
    split
    · rename_i hhere
      rw [segments_append_cons (hclass character hhere)]
      have hrest : segments (collapseFrom inClass mark true text) = segments text :=
        ih [] fun _ ↦ rfl
      split
      · rename_i hin
        rw [hinside hin, List.nil_append, hrest]
        rfl
      · rw [segments_append_cons hmark, hrest]
    · rw [List.append_cons, ih _ fun h ↦ absurd h Bool.false_ne_true, ← List.append_cons]

theorem segments_collapseRuns (hmark : isSeparator mark = true)
    (hclass : ∀ character, inClass character = true → isSeparator character = true)
    (text : List Char) : segments (collapseRuns inClass mark text) = segments text :=
  segments_collapseFrom hmark hclass [] (fun _ ↦ rfl) text

theorem segments_strip (hmark : isSeparator mark = true) (text : List Char) :
    segments (strip mark text) = segments text := by
  obtain ⟨front, back, hfront, hback, hsplit⟩ := exists_ends (· == mark) text
  have hends {part : List Char} (hpart : ∀ character ∈ part, (character == mark) = true) :
      ∀ character ∈ part, isSeparator character = true := by
    intro character hmember
    rwa [beq_iff_eq.mp (hpart character hmember)]
  rw [← strip_eq_rdropWhile] at hsplit
  conv_rhs => rw [hsplit, segments_between (hends hfront) (hends hback)]

/-- A name and its identifier have the same segments. -/
theorem segments_identifierCharacters (name : List Char) :
    segments (identifierCharacters name) = segments name := by
  rw [identifierCharacters, segments_strip (by decide),
    segments_collapseRuns (by decide) fun _ hseparator ↦ hseparator]

/-! ### Joining segments -/

/-- A text in which separators are single underscores between other characters is its segments
joined by underscores. -/
theorem eq_intercalate_of_hasSegments (hcut : HasSegments text pieces)
    (htight : Tight isSeparator '_' text) (hfirst : text.head?.any isSeparator = false)
    (hlast : text.getLast?.any isSeparator = false) : text = ['_'].intercalate pieces := by
  induction hcut with
  | nil => rfl
  | separator hseparator => exact absurd (hfirst.symm.trans hseparator) Bool.false_ne_true
  | last => exact List.intercalate_singleton.symm
  | @piece piece character rest pieces hpiece hseparator hrest ih =>
    obtain rfl : character = '_' :=
      htight.marks character (List.mem_append_right _ List.mem_cons_self) hseparator
    have hbehind : Tight isSeparator '_' ('_' :: rest) :=
      ⟨List.IsChain.suffix htight.apart (List.suffix_append _ _),
        fun other hother ↦ htight.marks other (List.mem_append_right _ hother)⟩
    obtain ⟨hnext, hapart⟩ := List.isChain_cons.mp hbehind.apart
    -- the underscore is not the end of the text, so something other than a separator follows it
    obtain ⟨first, others, rfl⟩ : ∃ first others, rest = first :: others := by
      refine List.exists_cons_of_ne_nil ?_
      rintro rfl
      rw [List.getLast?_concat] at hlast
      exact absurd hlast (by decide)
    have hjoined : first :: others = ['_'].intercalate pieces := by
      refine ih ⟨hapart, fun other hother ↦ hbehind.marks other (List.mem_cons_of_mem _ hother)⟩
        (Bool.eq_false_iff.mpr fun hhere ↦ hnext first rfl ⟨hseparator, hhere⟩) ?_
      rwa [List.getLast?_append_cons, List.getLast?_cons_cons] at hlast
    cases pieces with
    | nil => exact absurd hjoined (List.cons_ne_nil _ _)
    | cons second pieces => rw [List.intercalate_cons_cons, ← hjoined, List.append_assoc]; rfl

/-- An identifier joins the segments of its name by underscores. -/
theorem identifierCharacters_eq_intercalate (name : List Char) :
    identifierCharacters name = ['_'].intercalate (segments name) := by
  have htight := tight_identifierCharacters name
  obtain ⟨hfirst, hlast⟩ := ends_strip '_' (collapseRuns isSeparator '_' name)
  rw [← identifierCharacters] at hfirst hlast
  have hclear {border? : Option Char} (hmark : border? ≠ some '_')
      (hmember : ∀ character ∈ border?, character ∈ identifierCharacters name) :
      border?.any isSeparator = false := by
    cases border? with
    | none => rfl
    | some character =>
      refine Bool.eq_false_iff.mpr fun hseparator ↦ hmark ?_
      rw [htight.marks character (hmember character rfl) hseparator]
  rw [← segments_identifierCharacters]
  exact eq_intercalate_of_hasSegments (hasSegments_segments _) htight
    (hclear hfirst fun _ ↦ List.mem_of_mem_head?) (hclear hlast fun _ ↦ List.mem_of_getLast?)

/-- Names have the same identifier exactly if they have the same segments. -/
theorem identifierCharacters_eq_iff {name other : List Char} :
    identifierCharacters name = identifierCharacters other ↔ segments name = segments other := by
  constructor
  · intro hsame
    rw [← segments_identifierCharacters, hsame, segments_identifierCharacters]
  · intro hsame
    rw [identifierCharacters_eq_intercalate, hsame, ← identifierCharacters_eq_intercalate]

/-- The identifier of a name joins the segments of the name by underscores. So it is its own
identifier, names have the same one exactly if they have the same segments, a name with underscores
for its white space keeps it, and it has no white space of its own to replace. -/
theorem identifier_joins_segments (name : String) :
    (∀ pieces, HasSegments name.toList pieces ↔ pieces = segments name.toList) ∧
      (identifier name).toList = ['_'].intercalate (segments name.toList) ∧
      identifier (identifier name) = identifier name ∧
      (∀ other, identifier name = identifier other ↔
        segments name.toList = segments other.toList) ∧
      identifier (underscored name) = identifier name ∧
      underscored (identifier name) = identifier name := by
  refine ⟨fun _ ↦ hasSegments_iff, ?_, ?_, fun other ↦ ?_, ?_, ?_⟩
  · rw [identifier, String.toList_ofList, identifierCharacters_eq_intercalate]
  · exact identifier_identifier name
  · rw [identifier, identifier, String.ofList_inj, identifierCharacters_eq_iff]
  · rw [identifier, identifier, underscored, String.toList_ofList, String.ofList_inj,
      identifierCharacters_eq_iff,
      segments_collapseRuns (by decide) fun _ ↦ isSeparator_of_isWhiteSpace]
  · rw [underscored, identifier, String.toList_ofList,
      collapseRuns_identifierCharacters fun _ ↦ isSeparator_of_isWhiteSpace]

end Formulary.Name
