import Formulary.Name.WholeWord
import Formulary.Proofs.Substitution.LeftmostLongest

/-!
# Replacing whole words

A name that stands alone has no character of names glued to its edges; a substitution asks for
boundaries of words there instead. The two notions of a word dispute over some characters: a
superscript belongs to names but to no word, a combining mark to words but to no name. At one edge
of a name the two questions have the same answer just if both of the characters that meet there are
disputed or neither is, `boundary_iff_not_glued_iff`. Where this is so at every occurrence of a name
in a text, its substitution replaces the leftmost occurrences that stand alone and keeps the rest,
`apply_eq_written_of_edgesAgree`.
-/

set_option autoImplicit false
set_option relaxedAutoImplicit false

namespace Formulary.Name

open Formulary.Text

/-! ### Whole words in a text -/

/-- What a part between two texts is if a name is cut out of them as a whole word: the name where it
stands alone, or a character at which no occurrence of it that stands alone begins. -/
def Part.Separates (name front : List Char) (part : Part) (back : List Char) : Prop :=
  match part with
  | .name text => text = name ∧ standsAlone name front.getLast? back.head? = true
  | .character value => ∀ rest, name ++ rest = value :: back →
      standsAlone name front.getLast? rest.head? = false

/-- Some parts cut a text at the occurrences of a name that stand alone, leftmost first and with no
overlap, and at no other place. -/
structure IsWholeWordCut (name text : List Char) (parts : List Part) : Prop where
  source : sourceOf parts = text
  separates : ∀ done part rest, parts = done ++ part :: rest →
    part.Separates name (sourceOf done) (sourceOf rest)

/-! ### Disputed characters -/

/-- A character is disputed if it belongs to names but to no word or the other way round; where the
text ends there is none. -/
def Disputed (character : Option Char) : Prop :=
  character.any isNameCharacter ≠ character.any isWordCharacter

/-- At each edge of a name that is a character of names, this character and its neighbour are both
disputed or neither is. -/
structure EdgesAgree (name front back : List Char) : Prop where
  opens : opensName name = true → (Disputed name.head? ↔ Disputed front.getLast?)
  closes : closesName name = true → (Disputed name.getLast? ↔ Disputed back.head?)

variable {name front back text : List Char}

/-- At an edge that is a character of names, a boundary of words means that nothing is glued to it
just if the edge and its neighbour are both disputed or neither is. -/
theorem boundary_iff_not_glued_iff {edge neighbour : Option Char}
    (hedge : edge.any isNameCharacter = true) :
    ((¬(neighbour.any isWordCharacter = true ↔ edge.any isWordCharacter = true)) ↔
        neighbour.any isNameCharacter = false) ↔
      (Disputed edge ↔ Disputed neighbour) := by
  rw [Disputed, Disputed, hedge]
  cases edge.any isWordCharacter <;> cases neighbour.any isWordCharacter <;>
    cases neighbour.any isNameCharacter <;> simp

/-- Where its edges agree, a name stands between boundaries of words just if it stands alone. -/
theorem standsBetween_iff_standsAlone (hname : name ≠ []) (hagree : EdgesAgree name front back) :
    StandsBetween name front back ↔ standsAlone name front.getLast? back.head? = true := by
  have hopens : opensName name = true →
      (MeetAtBoundary front (name ++ back) ↔ front.getLast?.any isNameCharacter = false) := by
    intro hopens
    rw [MeetAtBoundary, List.head?_append_of_ne_nil name hname]
    exact (boundary_iff_not_glued_iff hopens).mpr (hagree.opens hopens)
  have hcloses : closesName name = true →
      (MeetAtBoundary (front ++ name) back ↔ back.head?.any isNameCharacter = false) := by
    intro hcloses
    have hedge := (boundary_iff_not_glued_iff hcloses).mpr (hagree.closes hcloses)
    rwa [MeetAtBoundary, List.getLast?_append_of_ne_nil front hname,
      iff_comm (b := back.head?.any isWordCharacter = true)]
  rw [standsAlone_eq_true_iff]
  constructor
  · exact fun hstands ↦ ⟨fun hopen ↦ (hopens hopen).mp (hstands.opens hopen),
      fun hclose ↦ (hcloses hclose).mp (hstands.closes hclose)⟩
  · exact fun halone ↦ ⟨fun hopen ↦ (hopens hopen).mpr (halone.1 hopen),
      fun hclose ↦ (hcloses hclose).mpr (halone.2 hclose)⟩

theorem not_disputed_of_ascii {character : Char} (hascii : character.toNat < 128) :
    ¬Disputed (some character) := by
  rw [Disputed, Option.any_some, Option.any_some, isNameCharacter_of_ascii _ hascii,
    isWordCharacter_of_ascii _ hascii]
  exact not_not_intro rfl

/-- In a text without disputed characters the edges of every name agree. -/
theorem edgesAgree_of_undisputed (htext : ∀ character ∈ text, ¬Disputed (some character))
    (hsplit : text = front ++ (name ++ back)) : EdgesAgree name front back := by
  have hnone {place : Option Char} (hplace : ∀ character ∈ place, character ∈ text) :
      ¬Disputed place := by
    cases place with
    | none => exact not_not_intro rfl
    | some character => exact htext character (hplace character rfl)
  subst hsplit
  exact {
    opens := fun _ ↦ iff_of_false
      (hnone fun _ hhead ↦ by simp [List.mem_of_head? hhead])
      (hnone fun _ hlast ↦ by simp [List.mem_of_getLast? hlast])
    closes := fun _ ↦ iff_of_false
      (hnone fun _ hlast ↦ by simp [List.mem_of_getLast? hlast])
      (hnone fun _ hhead ↦ by simp [List.mem_of_head? hhead]) }

/-! ### One name -/

section OneName

variable {replacement : String} {parts : List Part}

theorem lists_singleton_iff {name : String} (hblank : isBlank name.toList = false)
    (word : List Char) : Lists [(name, replacement)] word ↔ word = name.toList := by
  constructor
  · rintro ⟨_, pair, hpair, hname⟩
    obtain rfl := List.mem_singleton.mp hpair
    rw [← String.toList_ofList (l := word), ← hname]
  · rintro rfl
    exact ⟨hblank, _, List.mem_singleton_self _, String.ofList_toList.symm⟩

/-- Where the edges of its name agree, a rule fits where the name separates. -/
theorem fits_iff_separates {name : String} (hblank : isBlank name.toList = false)
    (hagree : ∀ done rest, front ++ text = done ++ (name.toList ++ rest) →
      EdgesAgree name.toList done rest) {part : Part} (htext : text = sourceOf [part] ++ back) :
    part.Fits [(name, replacement)] front back ↔ part.Separates name.toList front back := by
  have hlisted : Lists [(name, replacement)] name.toList := (lists_singleton_iff hblank _).mpr rfl
  have hstands {rest : List Char} (hrest : text = name.toList ++ rest) :
      StandsBetween name.toList front rest ↔
        standsAlone name.toList front.getLast? rest.head? = true :=
    standsBetween_iff_standsAlone hlisted.ne_nil (hagree front rest (by rw [hrest]))
  cases part with
  | name word =>
    have hword : text = word ++ back := by
      rw [htext, sourceOf_cons_name, sourceOf_nil, List.append_nil]
    constructor
    · rintro ⟨hlists, hbetween, _⟩
      obtain rfl := (lists_singleton_iff hblank word).mp hlists
      exact ⟨rfl, (hstands hword).mp hbetween⟩
    · rintro ⟨rfl, halone⟩
      refine ⟨hlisted, (hstands hword).mpr halone, ?_⟩
      intro other _ hother _ _
      exact Nat.le_of_eq (congrArg List.length ((lists_singleton_iff hblank other).mp hother))
  | character value =>
    constructor
    · intro hfits rest hrest
      have hnone := hfits _ rest hlisted hrest
      rwa [hstands (htext.trans hrest.symm), Bool.not_eq_true] at hnone
    · intro hseparates other rest hother hrest
      obtain rfl := (lists_singleton_iff hblank other).mp hother
      rw [hstands (htext.trans hrest.symm), Bool.not_eq_true]
      exact hseparates rest hrest

/-- Where the edges of a name agree throughout a text, the cut of the text for its substitution is
the one at its whole words. -/
theorem isCut_iff_isWholeWordCut {name : String} (hblank : isBlank name.toList = false)
    (hagree : ∀ front back, text = front ++ (name.toList ++ back) →
      EdgesAgree name.toList front back) :
    IsCut [(name, replacement)] text parts ↔ IsWholeWordCut name.toList text parts := by
  have hparts {done rest : List Part} {part : Part} (hsource : sourceOf parts = text)
      (hsplit : parts = done ++ part :: rest) :
      part.Fits [(name, replacement)] (sourceOf done) (sourceOf rest) ↔
        part.Separates name.toList (sourceOf done) (sourceOf rest) := by
    have htext : text = sourceOf done ++ (sourceOf [part] ++ sourceOf rest) := by
      rw [← hsource, hsplit, sourceOf_append, ← List.singleton_append, sourceOf_append]
    exact fits_iff_separates hblank (fun front back hwhole ↦ hagree front back (htext.trans hwhole))
      rfl
  constructor
  · rintro ⟨hsource, hfit⟩
    exact ⟨hsource, fun done part rest hsplit ↦ (hparts hsource hsplit).mp
      (hfit done part rest hsplit)⟩
  · rintro ⟨hsource, hseparates⟩
    exact ⟨hsource, fun done part rest hsplit ↦ (hparts hsource hsplit).mpr
      (hseparates done part rest hsplit)⟩

/-- All names of a cut at whole words are the one name, so one replacement is written. -/
theorem IsWholeWordCut.written_eq {name : String} (hcut : IsWholeWordCut name.toList text parts) :
    written (firstReplacement [(name, replacement)]) parts =
      written (fun _ ↦ replacement.toList) parts := by
  refine List.flatMap_congr fun part hpart ↦ ?_
  cases part with
  | character value => rfl
  | name word =>
    obtain ⟨done, rest, hsplit⟩ := List.append_of_mem hpart
    obtain ⟨rfl, _⟩ := hcut.separates done _ rest hsplit
    simp [Part.written, firstReplacement]

end OneName

/-- If the edges of a name agree wherever it occurs in a text, the text has just one cut at the
occurrences of the name that stand alone, and the substitution of the name writes the replacement
for each of them and keeps the rest. -/
theorem apply_eq_written_of_edgesAgree {name text : String} (replacement : String)
    (hblank : isBlank name.toList = false)
    (hagree : ∀ front back, text.toList = front ++ (name.toList ++ back) →
      EdgesAgree name.toList front back) :
    (∃! parts, IsWholeWordCut name.toList text.toList parts) ∧
      ∀ parts, IsWholeWordCut name.toList text.toList parts →
        (Substitution.ofPairs [(name, replacement)]).apply text =
          String.ofList (written (fun _ ↦ replacement.toList) parts) := by
  have hcuts (parts : List Part) :
      IsCut [(name, replacement)] text.toList parts ↔
        IsWholeWordCut name.toList text.toList parts :=
    isCut_iff_isWholeWordCut hblank hagree
  obtain ⟨hunique, hwritten, _⟩ := existsUnique_isCut [(name, replacement)] text
  simp only [hcuts] at hunique hwritten
  exact ⟨hunique, fun parts hcut ↦ by rw [hwritten parts hcut, hcut.written_eq]⟩

/-- The rate is replaced where it stands alone and kept in the rates. -/
theorem apply_rates :
    ∃ parts, IsWholeWordCut "Rate".toList "Rate + (Rates - Rate)".toList parts ∧
      (Substitution.ofPairs [("Rate", "r")]).apply "Rate + (Rates - Rate)" =
        String.ofList (written (fun _ ↦ "r".toList) parts) ∧
      (Substitution.ofPairs [("Rate", "r")]).apply "Rate + (Rates - Rate)" =
        "r + (Rates - r)" := by
  have hascii : "Rate + (Rates - Rate)".toList.all (fun character ↦ character.toNat < 128) = true :=
    rfl
  have hagree : ∀ front back,
      "Rate + (Rates - Rate)".toList = front ++ ("Rate".toList ++ back) →
      EdgesAgree "Rate".toList front back :=
    fun _ _ ↦ edgesAgree_of_undisputed fun character hcharacter ↦
      not_disputed_of_ascii (of_decide_eq_true (List.all_eq_true.mp hascii character hcharacter))
  obtain ⟨⟨parts, hcut, _⟩, hwritten⟩ :=
    apply_eq_written_of_edgesAgree "r" (by decide +kernel) hagree
  exact ⟨parts, hcut, hwritten parts hcut, by decide +kernel⟩

/-- A name that ends in a superscript is kept although it stands alone: the superscript belongs to
no word, and behind it no boundary of words lies. -/
theorem apply_area :
    ¬∃ parts, IsWholeWordCut "m²".toList "m² + 1".toList parts ∧
      (Substitution.ofPairs [("m²", "A")]).apply "m² + 1" =
        String.ofList (written (fun _ ↦ "A".toList) parts) := by
  rintro ⟨parts, ⟨hsource, hseparates⟩, hwritten⟩
  have hkept : (Substitution.ofPairs [("m²", "A")]).apply "m² + 1" = "m² + 1" := by decide +kernel
  rw [hkept] at hwritten
  cases parts with
  | nil => exact absurd hsource (by decide)
  | cons part rest =>
    have hfirst := hseparates [] part rest rfl
    cases part with
    | name word =>
      have hhead : some 'm' = some 'A' := congrArg List.head? (String.ofList_injective hwritten)
      exact absurd hhead (by decide)
    | character value =>
      have hglued := hfirst " + 1".toList hsource.symm
      exact absurd hglued (by decide +kernel)

end Formulary.Name
