import Formulary.Proofs.Name.Segments
import Formulary.Proofs.Name.TierUnion
import Formulary.Proofs.References.UsedParameter

/-!
# Identifiers that are resolved to their names

The identifier of a name collapses commas like white space and underscores and leaves nothing of
them at the ends; the forms in which names are compared keep the commas, and the normal form keeps
an underscore for a gap at an end. The main statement, `resolves_identifier_iff`, says which names
are found by their identifiers all the same, whatever other records there are: at a tier of whole
names by `exists_whole_matches_identifier_iff`, and at any tier by `exists_matches_identifier_iff`.
What is not found has a comma inside, since no form without the comma keeps the gap in its place,
`not_infix_of_hasInnerComma`.
-/

set_option autoImplicit false
set_option relaxedAutoImplicit false

namespace Formulary.Name

open Formulary.Text

variable {character mark : Char} {text front back : List Char} {inClass : Char → Bool}

/-! ### The ends of a name -/

/-- Separators at the ends of a name make no difference to its identifier. -/
theorem identifierCharacters_between (hfront : ∀ character ∈ front, isSeparator character = true)
    (hback : ∀ character ∈ back, isSeparator character = true) (text : List Char) :
    identifierCharacters (front ++ text ++ back) = identifierCharacters text :=
  identifierCharacters_eq_iff.mpr (segments_between hfront hback text)

theorem identifierCharacters_trim (text : List Char) :
    identifierCharacters (trim text) = identifierCharacters text := by
  obtain ⟨front, back, hfront, hback, hsplit⟩ := exists_ends isWhiteSpace text
  have hbetween := identifierCharacters_between
    (fun character hmember ↦ isSeparator_of_isWhiteSpace (hfront character hmember))
    (fun character hmember ↦ isSeparator_of_isWhiteSpace (hback character hmember))
    ((text.dropWhile isWhiteSpace).rdropWhile isWhiteSpace)
  rw [← hsplit] at hbetween
  exact hbetween.symm

/-! ### Texts that are identifiers -/

/-- The separators of an identifier are underscores. -/
theorem eq_underscore_of_mem_identifierCharacters {name : List Char}
    (hmember : character ∈ identifierCharacters name) (hseparator : isSeparator character = true) :
    character = '_' :=
  (tight_identifierCharacters name).marks character hmember hseparator

/-- An identifier is a text with no separators but underscores between two other characters. -/
theorem identifierCharacters_eq_self_iff (text : List Char) :
    identifierCharacters text = text ↔ ∀ front character back, text = front ++ character :: back →
      isSeparator character = true → character = '_' ∧
        (front ≠ [] ∧ front.getLast?.any isSeparator = false) ∧
        (back ≠ [] ∧ back.head?.any isSeparator = false) := by
  constructor
  · intro hsame front character back hsplit hseparator
    obtain ⟨hapart, hmarks⟩ := hsame ▸ tight_identifierCharacters text
    obtain ⟨hfirst, hlast⟩ := ends_strip '_' (collapseRuns isSeparator '_' text)
    rw [← identifierCharacters, hsame, hsplit] at hfirst hlast
    rw [hsplit] at hapart hmarks
    obtain rfl : character = '_' :=
      hmarks character (List.mem_append_right _ List.mem_cons_self) hseparator
    obtain ⟨-, hrest, hbefore⟩ := List.isChain_append.mp hapart
    obtain ⟨hafter, -⟩ := List.isChain_cons.mp hrest
    refine ⟨rfl, ⟨?_, ?_⟩, ?_, ?_⟩
    · rintro rfl
      exact hfirst rfl
    · cases hend : front.getLast? with
      | none => rfl
      | some last =>
        exact Bool.eq_false_iff.mpr fun hhere ↦ hbefore last hend '_' rfl ⟨hhere, hseparator⟩
    · rintro rfl
      exact hlast List.getLast?_concat
    · cases hhead : back.head? with
      | none => rfl
      | some first =>
        exact Bool.eq_false_iff.mpr fun hhere ↦ hafter first hhead ⟨hseparator, hhere⟩
  · intro hsplits
    have htight : Tight isSeparator '_' text := by
      refine ⟨List.isChain_iff_getElem.mpr fun place hplace hboth ↦ ?_,
        fun character hmember hhere ↦ ?_⟩
      · have hsplit : text = text.take place ++ text[place] :: text.drop (place + 1) := by
          rw [← List.drop_eq_getElem_cons, List.take_append_drop]
        have hnext := (hsplits _ _ _ hsplit hboth.1).2.2.2
        rw [List.head?_drop, List.getElem?_eq_getElem hplace] at hnext
        exact Bool.false_ne_true (hnext.symm.trans hboth.2)
      · obtain ⟨front, back, hsplit⟩ := List.append_of_mem hmember
        exact (hsplits front character back hsplit hhere).1
    have hcollapsed : collapseRuns isSeparator '_' text = text :=
      collapseFrom_of_tight htight fun h ↦ absurd h Bool.false_ne_true
    rw [identifierCharacters, hcollapsed]
    refine strip_eq_self (fun hfirst ↦ ?_) fun hlast ↦ ?_
    · obtain ⟨back, hsplit⟩ := List.head?_eq_some_iff.mp hfirst
      exact (hsplits [] '_' back hsplit (by decide)).2.1.1 rfl
    · obtain ⟨front, hsplit⟩ := List.getLast?_eq_some_iff.mp hlast
      exact (hsplits front '_' [] hsplit (by decide)).2.2.1 rfl

/-- A text is an identifier if its small letters are one. -/
theorem identifierCharacters_eq_self_of_lower
    (hsmall : identifierCharacters (lower text) = lower text) :
    identifierCharacters text = text := by
  rw [identifierCharacters_eq_self_iff] at hsmall ⊢
  rintro front character back rfl hseparator
  have hpieces := hsmall _ _ _ (lower_append_cons hseparator front back) hseparator
  rwa [ne_eq, ne_eq, lower_eq_nil_iff, lower_eq_nil_iff, getLast?_lower_any fun _ h ↦ h,
    head?_lower_any fun _ h ↦ h] at hpieces

/-! ### Gaps -/

/-- The identifier of a name without commas and without gaps at its ends is its normal form. -/
theorem identifierCharacters_eq_collapseRuns (hcomma : ',' ∉ text)
    (hfirst : text.head?.any isGap = false) (hlast : text.getLast?.any isGap = false) :
    identifierCharacters text = collapseRuns isGap '_' text := by
  have hsame : collapseRuns isSeparator '_' text = collapseRuns isGap '_' text := by
    refine collapseFrom_congr fun character hmember ↦ ?_
    have hother : (character == ',') = false := beq_eq_false_iff_ne.mpr fun h ↦ hcomma (h ▸ hmember)
    rw [isSeparator, isGap, hother, Bool.or_false]
  rw [identifierCharacters, hsame]
  refine strip_eq_self ?_ ?_
  · rw [head?_collapseRuns hfirst]
    exact ne_underscore_of_any_isGap hfirst
  · rw [getLast?_collapseRuns hlast]
    exact ne_underscore_of_any_isGap hlast

/-- An identifier has no white space to trim. -/
theorem trim_identifierCharacters (name : List Char) :
    trim (identifierCharacters name) = identifierCharacters name := by
  have hnone : ∀ character ∈ identifierCharacters name, isWhiteSpace character = false := by
    refine fun character hmember ↦ Bool.eq_false_iff.mpr fun hwhite ↦ ?_
    rw [eq_underscore_of_mem_identifierCharacters hmember (isSeparator_of_isWhiteSpace hwhite)]
      at hwhite
    exact absurd hwhite (by decide)
  show ((identifierCharacters name).dropWhile isWhiteSpace).rdropWhile isWhiteSpace = _
  rw [dropWhile_eq_self_of_head?, rdropWhile_eq_self_of_getLast?]
  · cases hend : (identifierCharacters name).getLast? with
    | none => rfl
    | some last => exact hnone last (List.mem_of_getLast? hend)
  · cases hhead : (identifierCharacters name).head? with
    | none => rfl
    | some first => exact hnone first (List.mem_of_mem_head? hhead)

theorem isBlankName_identifier {name : String} (hsome : identifier name ≠ "") :
    isBlankName (identifier name) = false := by
  refine isBlank_of_identifierCharacters_ne_nil fun hempty ↦ hsome ?_
  rw [← identifier_identifier, identifier, hempty]

/-- A gap at the end leaves its mark there. -/
theorem getLast?_collapseFrom_of_class (hlast : text.getLast?.any inClass = true) (inside : Bool) :
    (collapseFrom inClass mark inside text).getLast? = some mark ∨
      inside = true ∧ collapseFrom inClass mark inside text = [] := by
  induction text generalizing inside with
  | nil => cases hlast
  | cons first text ih =>
    cases text with
    | nil =>
      have hfirst : inClass first = true := hlast
      cases inside <;> simp [collapseFrom, hfirst]
    | cons second text =>
      rw [List.getLast?_cons_cons] at hlast
      rw [collapseFrom]
      split
      · split
        · rename_i hin
          exact (ih hlast true).imp_right fun hempty ↦ ⟨hin, hempty.2⟩
        · rcases ih hlast true with hmark | ⟨-, hempty⟩
          · exact Or.inl (by rw [List.getLast?_cons, hmark, Option.getD_some])
          · exact Or.inl (by rw [hempty, List.getLast?_singleton])
      · rcases ih hlast false with hmark | ⟨hin, -⟩
        · exact Or.inl (by rw [List.getLast?_cons, hmark, Option.getD_some])
        · cases hin

/-- A name whose normal form is an identifier has no commas and no gaps at its ends. -/
theorem ends_of_identifierCharacters_eq
    (hsame : identifierCharacters text = collapseRuns isGap '_' text) :
    ',' ∉ text ∧ text.head?.any isGap = false ∧ text.getLast?.any isGap = false := by
  obtain ⟨hfirst, hlast⟩ := ends_strip '_' (collapseRuns isSeparator '_' text)
  rw [← identifierCharacters, hsame] at hfirst hlast
  refine ⟨fun hcomma ↦ ?_, ?_, ?_⟩
  · have hmember : ',' ∈ collapseRuns isGap '_' text :=
      mem_collapseFrom_of_not_mem_class (by decide) hcomma
    rw [← hsame] at hmember
    exact absurd (eq_underscore_of_mem_identifierCharacters hmember (by decide)) (by decide)
  · cases text with
    | nil => rfl
    | cons first text =>
      refine Bool.eq_false_iff.mpr fun hgap ↦ hfirst ?_
      have hhere : isGap first = true := hgap
      rw [collapseRuns, collapseFrom, if_pos hhere]
      rfl
  · refine Bool.eq_false_iff.mpr fun hgap ↦ ?_
    rcases getLast?_collapseFrom_of_class hgap false with hmark | ⟨hin, -⟩
    · exact hlast hmark
    · cases hin

/-! ### The tiers of whole names -/

/-- The forms of an identifier are all the same but for what cleaning drops. -/
theorem forms_identifier (name : String) :
    Forms.of (identifier name) =
      { lowered := identifierCharacters (lower name.toList)
        cleaned := (identifierCharacters (lower name.toList)).filter isClean
        normalized := identifierCharacters (lower name.toList)
        trimmed := identifierCharacters (lower name.toList) } := by
  rw [Forms.of, identifier, String.toList_ofList, lower_identifierCharacters_eq,
    collapseRuns_identifierCharacters fun _ ↦ isSeparator_of_isGap, trim_identifierCharacters]

/-- A name and its identifier have the same normal form just where the name has no commas and no
gaps at its ends. -/
theorem matches_normalized_identifier_iff (name : String) :
    Tier.normalized.matches (identifier name) name = true ↔
      ',' ∉ name.toList ∧ name.toList.head?.any isGap = false ∧
        name.toList.getLast?.any isGap = false := by
  have hends : (',' ∉ lower name.toList ∧ (lower name.toList).head?.any isGap = false ∧
      (lower name.toList).getLast?.any isGap = false) ↔ ',' ∉ name.toList ∧
        name.toList.head?.any isGap = false ∧ name.toList.getLast?.any isGap = false := by
    rw [mem_lower_iff (by decide), head?_lower_any fun _ ↦ isSeparator_of_isGap,
      getLast?_lower_any fun _ ↦ isSeparator_of_isGap]
  rw [Tier.matches, forms_identifier, Forms.agree, beq_iff_eq, ← hends]
  exact ⟨ends_of_identifierCharacters_eq,
    fun h ↦ identifierCharacters_eq_collapseRuns h.1 h.2.1 h.2.2⟩

/-- A name and its identifier are the same trimmed just where the name is its identifier up to
white space at its ends. -/
theorem matches_trimmed_identifier_iff (name : String) :
    Tier.trimmed.matches (identifier name) name = true ↔
      trim name.toList = identifierCharacters name.toList := by
  have htrimmed : (Forms.of name).trimmed = lower (trim name.toList) := trim_lower name.toList
  rw [Tier.matches, forms_identifier, Forms.agree, beq_iff_eq, htrimmed,
    ← lower_identifierCharacters_eq]
  refine ⟨fun hsame ↦ ?_, fun hsame ↦ by rw [hsame]⟩
  have hsmall : identifierCharacters (lower (trim name.toList)) = lower (trim name.toList) := by
    rw [← hsame, ← lower_identifierCharacters_eq, identifierCharacters_idem]
  rw [← identifierCharacters_trim, identifierCharacters_eq_self_of_lower hsmall]

/-- What is the same up to letter case is the same trimmed. -/
theorem matches_trimmed_of_exact {token name : String}
    (hexact : Tier.exact.matches token name = true) : Tier.trimmed.matches token name = true := by
  have hsame : lower token.toList = lower name.toList := beq_iff_eq.mp hexact
  rw [Tier.matches, Forms.agree, Forms.of, Forms.of, hsame, beq_self_eq_true]

/-- The identifier of a name matches it at a tier of whole names in three cases: the name has no
commas and no gaps at its ends, or it is its identifier up to white space at its ends, or nothing
but characters that cleaning drops distinguishes the two. -/
theorem exists_whole_matches_identifier_iff (name : String) :
    (∃ tier ∈ Tier.wholes, tier.matches (identifier name) name = true) ↔
      (',' ∉ name.toList ∧ name.toList.head?.any isGap = false ∧
        name.toList.getLast?.any isGap = false) ∨
      trim name.toList = identifierCharacters name.toList ∨
      Tier.cleaned.matches (identifier name) name = true := by
  rw [← matches_normalized_identifier_iff, ← matches_trimmed_identifier_iff]
  simp only [Tier.wholes, List.mem_cons, List.not_mem_nil, or_false, exists_eq_or_imp,
    exists_eq_left]
  constructor
  · rintro (hexact | hcleaned | hnormalized | htrimmed)
    · exact Or.inr (Or.inl (matches_trimmed_of_exact hexact))
    · exact Or.inr (Or.inr hcleaned)
    · exact Or.inl hnormalized
    · exact Or.inr (Or.inl htrimmed)
  · rintro (hnormalized | htrimmed | hcleaned)
    · exact Or.inr (Or.inr (Or.inl hnormalized))
    · exact Or.inr (Or.inr (Or.inr htrimmed))
    · exact Or.inr (Or.inl hcleaned)

/-! ### The loosest tier -/

/-- Whether a name has a comma between two characters that are no separators. -/
def HasInnerComma (name : List Char) : Prop :=
  ∃ front back, name = front ++ ',' :: back ∧ (∃ character ∈ front, isSeparator character = false) ∧
    ∃ character ∈ back, isSeparator character = false

theorem hasInnerComma_lower {name : List Char} (hinner : HasInnerComma name) :
    HasInnerComma (lower name) := by
  obtain ⟨front, back, rfl, hfront, hback⟩ := hinner
  exact ⟨lower front, lower back, lower_append_cons (by decide) front back,
    exists_not_isSeparator_lower hfront, exists_not_isSeparator_lower hback⟩

theorem any_isGap_of_any_isSeparator {character? : Option Char}
    (hseparator : character?.any isSeparator = false) : character?.any isGap = false := by
  cases character? with
  | none => rfl
  | some character => exact not_inClass_of_not_isSeparator (fun _ ↦ isSeparator_of_isGap) hseparator

/-- Separators at the ends of a text stay there when it is lowered. -/
theorem lower_between (hfront : ∀ character ∈ front, isSeparator character = true)
    (hback : ∀ character ∈ back, isSeparator character = true) (text : List Char) :
    lower (front ++ text ++ back) = front ++ lower text ++ back := by
  induction front with
  | nil =>
    induction back using List.reverseRecOn with
    | nil => rw [List.nil_append, List.nil_append, List.append_nil, List.append_nil]
    | append_singleton back last ih =>
      rw [← List.append_assoc, lower_concat_of_isSeparator (hback last (by simp)),
        ih fun character hmember ↦ hback character (List.mem_append_left _ hmember),
        List.append_assoc]
  | cons first front ih =>
    rw [List.cons_append, List.cons_append,
      lower_cons_of_isSeparator (hfront first List.mem_cons_self),
      ih fun character hmember ↦ hfront character (List.mem_cons_of_mem first hmember)]
    rfl

/-- Without a comma inside a name its identifier is part of the normal form of the name, up to
letter case. -/
theorem occursIn_collapseRuns_of_not_hasInnerComma {name : List Char}
    (hsome : identifierCharacters name ≠ []) (hinner : ¬HasInnerComma name) :
    occursIn (identifierCharacters (lower name)) (collapseRuns isGap '_' (lower name)) = true := by
  obtain ⟨front, back, hfront, hback, hsplit⟩ := exists_ends isSeparator name
  obtain ⟨hfirst, hlast⟩ := ends_dropWhile isSeparator name
  set core := (name.dropWhile isSeparator).rdropWhile isSeparator
  have hcore : core ≠ [] := by
    intro hempty
    refine hsome ((identifierCharacters_eq_nil_iff name).mpr fun character hmember ↦ ?_)
    rw [hsplit, hempty, List.append_nil] at hmember
    exact (List.mem_append.mp hmember).elim (hfront character) (hback character)
  -- the characters at its ends are no commas and stand on both sides of each comma inside
  have hcomma : ',' ∉ core := by
    intro hmember
    obtain ⟨before, behind, hcut⟩ := List.append_of_mem hmember
    refine hinner ⟨front ++ before, behind ++ back, by rw [hsplit, hcut]; simp, ?_, ?_⟩
    · cases before with
      | nil => simp [hcut, show isSeparator ',' = true by decide] at hfirst
      | cons first before => exact ⟨first, by simp, by simpa [hcut] using hfirst⟩
    · rcases List.eq_nil_or_concat behind with rfl | ⟨others, last, rfl⟩
      · simp [hcut, show isSeparator ',' = true by decide] at hlast
      · refine ⟨last, by simp, ?_⟩
        rw [hcut, List.concat_eq_append, ← List.cons_append, ← List.append_assoc,
          List.getLast?_concat] at hlast
        exact hlast
  have hsmall : (lower core).head?.any isGap = false := by
    rw [head?_lower_any fun _ ↦ isSeparator_of_isGap]
    exact any_isGap_of_any_isSeparator hfirst
  have hlowered : identifierCharacters (lower name) = collapseRuns isGap '_' (lower core) := by
    rw [hsplit, lower_between hfront hback, identifierCharacters_between hfront hback]
    refine identifierCharacters_eq_collapseRuns ?_ hsmall ?_
    · rwa [mem_lower_iff (by decide)]
    · rw [getLast?_lower_any fun _ ↦ isSeparator_of_isGap]
      exact any_isGap_of_any_isSeparator hlast
  have hrest : (lower core ++ back).head?.any isGap = false := by
    obtain ⟨first, others, hcons⟩ :=
      List.exists_cons_of_ne_nil (mt (lower_eq_nil_iff core).mp hcore)
    rw [hcons] at hsmall ⊢
    exact hsmall
  obtain ⟨behind, hbehind⟩ := @isPrefix_collapseFrom isGap '_' false (lower core) back
  rw [hlowered, hsplit, lower_between hfront hback, List.append_assoc, collapseRuns, collapseRuns,
    collapseFrom_append false front hrest, collapseRuns, ← hbehind]
  exact (occursIn_iff _ _).mpr ⟨_, behind, (List.append_assoc _ _ _).symm⟩

/-! ### What cannot contain an identifier -/

/-- Collapsing takes away the characters of the class and adds marks. -/
theorem filter_collapseFrom {keep : Char → Bool} (hmark : keep mark = false) (inside : Bool)
    (text : List Char) : (collapseFrom inClass mark inside text).filter keep =
      text.filter fun character ↦ keep character && !inClass character := by
  induction text generalizing inside with
  | nil => rfl
  | cons first text ih =>
    rw [collapseFrom]
    split
    · rename_i hfirst
      have hdropped :
          ((first :: text).filter fun character ↦ keep character && !inClass character) =
            text.filter fun character ↦ keep character && !inClass character :=
        List.filter_cons_of_neg (by simp [hfirst])
      rw [hdropped]
      split
      · exact ih true
      · rw [List.filter_cons_of_neg (Bool.eq_false_iff.mp hmark), ih true]
    · rename_i hfirst
      rw [List.filter_cons, List.filter_cons, ih false]
      simp [hfirst]

/-- Dropping characters at the ends is not seen by who does not look at them. -/
theorem filter_dropWhile {keep : Char → Bool}
    (hclass : ∀ character, inClass character = true → keep character = false) (text : List Char) :
    ((text.dropWhile inClass).rdropWhile inClass).filter keep = text.filter keep := by
  obtain ⟨front, back, hfront, hback, hsplit⟩ := exists_ends inClass text
  have hnone {part : List Char} (hpart : ∀ character ∈ part, inClass character = true) :
      part.filter keep = [] :=
    List.filter_eq_nil_iff.mpr fun character hmember ↦
      Bool.eq_false_iff.mp (hclass character (hpart character hmember))
  conv_rhs => rw [hsplit, List.filter_append, List.filter_append, hnone hfront, hnone hback,
    List.nil_append, List.append_nil]

/-- Of an identifier nothing is left but what is no separator in the name. -/
theorem filter_identifierCharacters (name : List Char) :
    (identifierCharacters name).filter (fun character ↦ !isGap character) =
      name.filter fun character ↦ !isSeparator character := by
  have hmark (character : Char) (hmark : (character == '_') = true) :
      (!isGap character) = false := by
    rw [beq_iff_eq.mp hmark]
    decide
  rw [identifierCharacters, strip_eq_rdropWhile, filter_dropWhile hmark, collapseRuns,
    filter_collapseFrom (by decide)]
  refine List.filter_congr fun character _ ↦ ?_
  cases hgap : isGap character with
  | false => rfl
  | true => rw [isSeparator_of_isGap hgap]; rfl

/-- Around what is kept of a text in one piece stands nothing that is kept. -/
theorem not_mem_of_filter_piece {keep : Char → Bool} {whole left right : List Char}
    (hpiece : left ++ whole.filter keep ++ right = whole) (hkept : keep character = true) :
    character ∉ left ∧ character ∉ right := by
  have hlength := congrArg (fun text ↦ (text.filter keep).length) hpiece
  have htwice : (whole.filter keep).filter keep = whole.filter keep := by simp
  simp only [List.filter_append, htwice, List.length_append] at hlength
  have houtside {part : List Char} (hpart : (part.filter keep).length = 0) : character ∉ part := by
    have hnone := List.filter_eq_nil_iff.mp (List.length_eq_zero_iff.mp hpart)
    exact fun hmember ↦ hnone character hmember hkept
  exact ⟨houtside (by omega), houtside (by omega)⟩

/-- A character of a text is in a piece of it, or else in front of it or behind it with all that is
on that side of the character. -/
theorem mem_or_prefix_or_suffix_of_append_eq {left piece right before behind : List Char}
    (hsame : left ++ (piece ++ right) = before ++ character :: behind) :
    character ∈ piece ∨ before <+: left ∨ behind <:+ right := by
  rcases List.append_eq_append_iff.mp hsame with ⟨rest, rfl, hrest⟩ | ⟨rest, rfl, -⟩
  · rcases List.append_eq_append_iff.mp hrest with ⟨tail, -, rfl⟩ | ⟨tail, rfl, htail⟩
    · exact Or.inr (Or.inr ((List.suffix_cons character behind).trans (List.suffix_append _ _)))
    · cases tail with
      | nil =>
        rw [List.nil_append] at htail
        exact Or.inr (Or.inr (htail ▸ List.suffix_cons character behind))
      | cons comma tail =>
        obtain ⟨rfl, -⟩ := List.cons.inj htail
        exact Or.inl (List.mem_append_right _ List.mem_cons_self)
  · exact Or.inr (Or.inl (List.prefix_append before rest))

/-- What a comma inside of a name separates is not in one piece without the comma, and the name is
no part of what there is without commas. -/
theorem not_infix_of_hasInnerComma {name : List Char} (hinner : HasInnerComma name) :
    ¬ (name.filter fun character ↦ !isSeparator character) <:+:
        (name.filter fun character ↦ !isGap character) ∧
      ¬ (name.filter fun character ↦ !isGap character) <:+:
        (name.filter fun character ↦ !isSeparator character) := by
  have hgap {character : Char} (hother : isSeparator character = false) :
      isGap character = false :=
    not_inClass_of_not_isSeparator (fun _ ↦ isSeparator_of_isGap) hother
  have hnocomma : ',' ∉ name.filter fun character ↦ !isSeparator character := by
    simp [List.mem_filter, show isSeparator ',' = true by decide]
  have hsame : (name.filter fun character ↦ !isSeparator character) =
      (name.filter fun character ↦ !isGap character).filter
        fun character ↦ !isSeparator character := by
    rw [List.filter_filter]
    refine List.filter_congr fun character _ ↦ ?_
    cases hother : isSeparator character with
    | true => rfl
    | false => rw [hgap hother]; rfl
  obtain ⟨front, back, hsplit, ⟨first, hfirst, hfirstOther⟩, last, hlast, hlastOther⟩ := hinner
  obtain ⟨before, hbefore⟩ :
      ∃ before, before = front.filter fun character ↦ !isGap character := ⟨_, rfl⟩
  obtain ⟨behind, hbehind⟩ :
      ∃ behind, behind = back.filter fun character ↦ !isGap character := ⟨_, rfl⟩
  have hparts : (name.filter fun character ↦ !isGap character) = before ++ ',' :: behind := by
    rw [hsplit, List.filter_append, List.filter_cons_of_pos (by decide), hbefore, hbehind]
  have hfirstIn : first ∈ before := by
    simp [hbefore, List.mem_filter, hfirst, hgap hfirstOther]
  have hlastIn : last ∈ behind := by
    simp [hbehind, List.mem_filter, hlast, hgap hlastOther]
  constructor
  · rintro ⟨left, right, hpiece⟩
    obtain ⟨hfirstOut, -⟩ := not_mem_of_filter_piece (hsame ▸ hpiece)
      (show (!isSeparator first) = true by rw [hfirstOther]; rfl)
    obtain ⟨-, hlastOut⟩ := not_mem_of_filter_piece (hsame ▸ hpiece)
      (show (!isSeparator last) = true by rw [hlastOther]; rfl)
    rw [hparts, List.append_assoc] at hpiece
    rcases mem_or_prefix_or_suffix_of_append_eq hpiece with hcomma | hbefore | hbehind
    · exact hnocomma hcomma
    · exact hfirstOut (hbefore.subset hfirstIn)
    · exact hlastOut (hbehind.subset hlastIn)
  · intro hpiece
    rw [hparts] at hpiece
    exact hnocomma (hpiece.subset (List.mem_append_right _ List.mem_cons_self))

/-! ### Any tier -/

/-- The identifier of a name matches it at some tier in two cases: the name has no comma inside, or
what cleaning leaves of one of the two contains what it leaves of the other. -/
theorem exists_matches_identifier_iff {name : String} (hsome : identifier name ≠ "") :
    (∃ tier ∈ Tier.all, tier.matches (identifier name) name = true) ↔
      ¬HasInnerComma name.toList ∨
        containsEither (Forms.of (identifier name)).cleaned (Forms.of name).cleaned = true := by
  have hcharacters : identifierCharacters name.toList ≠ [] :=
    fun hempty ↦ hsome (by rw [identifier, hempty])
  have hlowered : (Forms.of (identifier name)).lowered =
      identifierCharacters (lower name.toList) := by rw [forms_identifier]
  have hnormalized : (Forms.of (identifier name)).normalized =
      identifierCharacters (lower name.toList) := by rw [forms_identifier]
  have htrimmed : (Forms.of (identifier name)).trimmed =
      identifierCharacters (lower name.toList) := by rw [forms_identifier]
  rw [exists_matches_iff (isBlankName_identifier hsome), matches_part_iff, hlowered, hnormalized,
    htrimmed]
  constructor
  · intro hcontains
    refine or_iff_not_imp_left.mpr fun hinner ↦ ?_
    obtain ⟨hwithin, haround⟩ :=
      not_infix_of_hasInnerComma (hasInnerComma_lower (not_not.mp hinner))
    -- none of the other forms differs from the name in more than gaps
    have hnone {form : List Char} (hform : (form.filter fun character ↦ !isGap character) =
        (lower name.toList).filter fun character ↦ !isGap character) :
        ¬containsEither (identifierCharacters (lower name.toList)) form = true := by
      intro hcontains
      rcases infix_of_containsEither hcontains with hpiece | hpiece
      · have hfiltered := hpiece.filter fun character ↦ !isGap character
        rw [hform, filter_identifierCharacters] at hfiltered
        exact haround hfiltered
      · have hfiltered := hpiece.filter fun character ↦ !isGap character
        rw [hform, filter_identifierCharacters] at hfiltered
        exact hwithin hfiltered
    have hwhite (character : Char) (hwhite : isWhiteSpace character = true) :
        (!isGap character) = false := by
      rw [isGap, hwhite]
      rfl
    rcases hcontains with hlowered | hcleaned | hnormalized | htrimmed
    · exact absurd hlowered (hnone rfl)
    · exact hcleaned
    · refine absurd hnormalized (hnone ?_)
      rw [Forms.of, collapseRuns, filter_collapseFrom (by decide)]
      simp
    · exact absurd htrimmed (hnone (filter_dropWhile hwhite _))
  · rintro (hinner | hcleaned)
    · refine Or.inr (Or.inr (Or.inl (containsEither_of_occursIn ?_
        (occursIn_collapseRuns_of_not_hasInnerComma hcharacters hinner))))
      rwa [← lower_identifierCharacters_eq, ne_eq, lower_eq_nil_iff]
    · exact Or.inr (Or.inl hcleaned)

/-! ### Finding the record of a name -/

section

variable {Entry : Type} [Named Entry] {record : Entry}

/-- The identifier of a name, unless it is empty, is resolved at a tier of whole names among all
records with one of this name in three cases: the name has no commas and no gaps at its ends, or it
is its identifier up to white space at its ends, or the two differ in nothing but what cleaning
drops. And the record is referenced under its identifier among all records in two cases: the name
has no comma inside, or of what cleaning leaves of the two one contains the other. -/
theorem resolves_identifier_iff (hidentifier : identifier (Named.name record) ≠ "") :
    ((∀ records : List Entry, record ∈ records → ∃ tier ∈ Tier.wholes, ∃ found, found ≠ [] ∧
        resolve (identifier (Named.name record)) records = some (tier, found)) ↔
      (',' ∉ (Named.name record).toList ∧ (Named.name record).toList.head?.any isGap = false ∧
        (Named.name record).toList.getLast?.any isGap = false) ∨
      trim (Named.name record).toList = identifierCharacters (Named.name record).toList ∨
      Tier.cleaned.matches (identifier (Named.name record)) (Named.name record) = true) ∧
    ((∀ records : List Entry, record ∈ records → Named.identity record ∈
        (referenced (identifier (Named.name record)) records).map Named.identity) ↔
      ¬HasInnerComma (Named.name record).toList ∨
      containsEither (Forms.of (identifier (Named.name record))).cleaned
        (Forms.of (Named.name record)).cleaned = true) := by
  rw [← exists_whole_matches_identifier_iff, ← exists_matches_identifier_iff hidentifier]
  refine ⟨⟨fun hresolved ↦ ?_, ?_⟩, fun hreferenced ↦ ?_, ?_⟩
  · obtain ⟨tier, -, found, -, hfound⟩ := hresolved [record] List.mem_cons_self
    have hsome : (resolve (identifier (Named.name record)) [record]).isSome = true := by
      rw [hfound]
      rfl
    obtain ⟨tier, htier, other, hother, hmatches⟩ := isSome_resolveAmong_iff.mp hsome
    rw [List.mem_singleton.mp hother] at hmatches
    exact ⟨tier, htier, hmatches⟩
  · rintro ⟨tier, htier, hmatches⟩ records hrecord
    have hsome := isSome_resolveAmong_iff.mpr ⟨tier, htier, record, hrecord, hmatches⟩
    obtain ⟨⟨whole, found⟩, hresolved⟩ := Option.isSome_iff_exists.mp hsome
    obtain ⟨stricter, looser, hsplit, -, -, hfound⟩ := resolveAmong_eq_some_iff.mp hresolved
    exact ⟨whole, hsplit ▸ List.mem_append_right _ List.mem_cons_self, found, hfound, hresolved⟩
  · obtain ⟨other, hother, -, hmatches⟩ :=
      mem_identities_referenced_iff.mp (hreferenced [record] List.mem_cons_self)
    rwa [List.mem_singleton.mp hother] at hmatches
  · rintro ⟨tier, htier, hmatches⟩ records hrecord
    exact mem_identities_referenced_iff.mpr ⟨record, hrecord, rfl, tier, htier, hmatches⟩

/-- Two words with a space between them: the identifier is found in normal form. -/
theorem resolves_energy_price :
    let price : Parameter := { id := "p1", name := "Energy Price" }
    let records : List Parameter := [{ id := "p2", name := "Rate" }, price]
    identifier price.name ≠ "" ∧
      (∃ tier ∈ Tier.wholes, ∃ found, found ≠ [] ∧
        resolve (identifier price.name) records = some (tier, found)) ∧
      price.id ∈ (referenced (identifier price.name) records).map Named.identity := by
  intro price records
  have hidentifier : identifier (Named.name price) ≠ "" := by decide +kernel
  have hprice : price ∈ records := List.mem_cons_of_mem _ List.mem_cons_self
  have hends : ',' ∉ (Named.name price).toList ∧
      (Named.name price).toList.head?.any isGap = false ∧
      (Named.name price).toList.getLast?.any isGap = false := by decide +kernel
  have hinner : ¬HasInnerComma (Named.name price).toList := by
    rintro ⟨front, back, hsplit, -⟩
    exact hends.1 (hsplit ▸ List.mem_append_right _ List.mem_cons_self)
  obtain ⟨hresolved, hreferenced⟩ := resolves_identifier_iff hidentifier
  exact ⟨hidentifier, hresolved.mpr (Or.inl hends) records hprice,
    hreferenced.mpr (Or.inl hinner) records hprice⟩

/-- A comma inside of a name: the identifier collapses it, the forms keep it or drop it, and the
name is found at no tier. -/
theorem cost_per_unit_unresolved :
    let cost : Parameter := { id := "p1", name := "Cost, per unit" }
    identifier cost.name = "Cost_per_unit" ∧
      resolve (identifier cost.name) [cost] = none ∧
      referenced (identifier cost.name) [cost] = [] := by
  decide +kernel

end

end Formulary.Name
