import Formulary.Name.Tier
import Formulary.Proofs.Name.IdentifierText

/-!
# Names up to letter case

Lower-casing a clean text is done character by character and keeps what is plain, white or an
underscore, `lower_of_clean`. So it commutes with making identifiers,
`lower_identifierCharacters`, and on names that are runs all the exact tiers come to the same: names
that match have identifiers that differ in letter case at most, `lower_identifier_eq_of_matches`.
-/

set_option autoImplicit false
set_option relaxedAutoImplicit false

namespace Formulary.Name

open Formulary.Text

variable {character : Char} {text word : List Char} {inClass : Char → Bool} {mark : Char}

/-! ### Clean characters -/

/-- The small letter of a character that has the simple mapping. -/
def smallLetter (character : Char) : Char :=
  Char.ofNat (lowerCode character.toNat)

/-- What holds of ASCII and of white space holds of every clean character. -/
theorem of_isClean (property : Char → Prop)
    (hcodes : ∀ code ∈ List.range 128, property (Char.ofNat code))
    (hwhite : ∀ range ∈ whiteSpaceRanges, ∀ offset ∈ List.range (range.2 + 1 - range.1),
      property (Char.ofNat (range.1 + offset)))
    (hclean : isClean character = true) : property character := by
  rw [isClean, Bool.or_eq_true] at hclean
  rcases hclean with hplain | hspace
  · exact of_ascii property hcodes (isAscii_of_isPlainCharacter hplain)
  · exact of_isWhiteSpace property hwhite hspace

/-- Lower-casing keeps the gaps of a clean text and all else in it. -/
theorem smallLetter_of_clean (hclean : isClean character = true) :
    lowerCharacter character = [smallLetter character] ∧ character ≠ 'Σ' ∧
      isClean (smallLetter character) = true ∧
      isWhiteSpace (smallLetter character) = isWhiteSpace character ∧
      (smallLetter character == '_') = (character == '_') := by
  refine of_isClean (fun character ↦ isClean character = true →
      lowerCharacter character = [smallLetter character] ∧ character ≠ 'Σ' ∧
        isClean (smallLetter character) = true ∧
        isWhiteSpace (smallLetter character) = isWhiteSpace character ∧
        (smallLetter character == '_') = (character == '_')) ?_ ?_ hclean hclean
  · decide +kernel
  · decide +kernel

theorem isGap_smallLetter (hclean : isClean character = true) :
    isGap (smallLetter character) = isGap character := by
  obtain ⟨_, _, _, hwhite, hmark⟩ := smallLetter_of_clean hclean
  rw [isGap, isGap, hwhite, hmark]

/-- In a clean text the separators are the gaps. -/
theorem isSeparator_of_clean (hclean : isClean character = true) :
    isSeparator character = isGap character := by
  have hcomma : (character == ',') = false := by
    refine beq_eq_false_iff_ne.mpr ?_
    rintro rfl
    exact absurd hclean (by decide)
  rw [isSeparator, isGap, hcomma, Bool.or_false]

/-! ### Clean texts -/

theorem lowerAfter_of_clean (hclean : ∀ character ∈ text, isClean character = true)
    (before : List Char) : lowerAfter before text = text.map smallLetter := by
  induction text generalizing before with
  | nil => rfl
  | cons character text ih =>
    obtain ⟨hsmall, hsigma, _⟩ := smallLetter_of_clean (hclean character List.mem_cons_self)
    rw [lowerAfter, if_neg hsigma, hsmall,
      ih fun other hother ↦ hclean other (List.mem_cons_of_mem character hother)]
    rfl

/-- A clean text is lower-cased character by character. -/
theorem lower_of_clean (hclean : ∀ character ∈ text, isClean character = true) :
    lower text = text.map smallLetter :=
  lowerAfter_of_clean hclean []

theorem clean_lower (hclean : ∀ character ∈ text, isClean character = true) :
    ∀ character ∈ lower text, isClean character = true := by
  intro character hcharacter
  rw [lower_of_clean hclean] at hcharacter
  obtain ⟨capital, hcapital, rfl⟩ := List.mem_map.mp hcharacter
  exact (smallLetter_of_clean (hclean capital hcapital)).2.2.1

/-- Runs of a class are collapsed alike where the classes agree. -/
theorem collapseFrom_congr {otherClass : Char → Bool} {inside : Bool}
    (hsame : ∀ character ∈ text, inClass character = otherClass character) :
    collapseFrom inClass mark inside text = collapseFrom otherClass mark inside text := by
  induction text generalizing inside with
  | nil => rfl
  | cons character text ih =>
    have hlater := fun other hother ↦ hsame other (List.mem_cons_of_mem character hother)
    rw [collapseFrom, collapseFrom, hsame character List.mem_cons_self, ih hlater, ih hlater]

/-- Collapsing commutes with a change of characters that keeps the class and the mark. -/
theorem collapseFrom_map {change : Char → Char} {inside : Bool} (hmark : change mark = mark)
    (hsame : ∀ character ∈ text, inClass (change character) = inClass character) :
    collapseFrom inClass mark inside (text.map change) =
      (collapseFrom inClass mark inside text).map change := by
  induction text generalizing inside with
  | nil => rfl
  | cons character text ih =>
    have hlater := fun other hother ↦ hsame other (List.mem_cons_of_mem character hother)
    rw [List.map_cons, collapseFrom, collapseFrom, hsame character List.mem_cons_self, ih hlater,
      ih hlater]
    split
    · split
      · rfl
      · rw [List.map_cons, hmark]
    · rfl

/-- Taking marks off the ends commutes with a change of characters that makes and spares none. -/
theorem strip_map {change : Char → Char}
    (hsame : ∀ character ∈ text, (change character == mark) = (character == mark)) :
    strip mark (text.map change) = (strip mark text).map change := by
  have hdrop {part : List Char} (hpart : ∀ character ∈ part, character ∈ text) :
      (part.map change).dropWhile (· == mark) = (part.dropWhile (· == mark)).map change := by
    induction part with
    | nil => rfl
    | cons character part ih =>
      rw [List.map_cons, List.dropWhile_cons, List.dropWhile_cons,
        hsame character (hpart character List.mem_cons_self)]
      split
      · exact ih fun other hother ↦ hpart other (List.mem_cons_of_mem character hother)
      · rfl
  rw [strip, strip, hdrop fun _ hcharacter ↦ hcharacter, ← List.map_reverse, hdrop,
    List.map_reverse]
  exact fun character hcharacter ↦
    (List.dropWhile_suffix (· == mark)).subset (List.mem_reverse.mp hcharacter)

/-! ### Identifiers -/

/-- The identifier of a clean name in small letters comes from the name in small letters. -/
theorem lower_identifierCharacters (hclean : ∀ character ∈ word, isClean character = true) :
    lower (identifierCharacters word) = strip '_' (collapseRuns isGap '_' (lower word)) := by
  have hsmall : ∀ character ∈ identifierCharacters word, isClean character = true := by
    intro character hcharacter
    rw [isClean, all_plain_identifierCharacters hclean character hcharacter, Bool.true_or]
  have hcollapsed : collapseRuns isGap '_' (lower word) =
      (collapseRuns isSeparator '_' word).map smallLetter := by
    have hsame : collapseFrom isSeparator '_' false word = collapseFrom isGap '_' false word :=
      collapseFrom_congr fun character hcharacter ↦
        isSeparator_of_clean (hclean character hcharacter)
    rw [collapseRuns, collapseRuns, hsame, lower_of_clean hclean]
    exact collapseFrom_map (by decide +kernel) fun character hcharacter ↦
      isGap_smallLetter (hclean character hcharacter)
  rw [lower_of_clean hsmall, identifierCharacters, hcollapsed]
  refine (strip_map fun character hcharacter ↦ ?_).symm
  rcases mem_collapseFrom hcharacter with rfl | ⟨hword, _⟩
  · decide +kernel
  · exact (smallLetter_of_clean (hclean character hword)).2.2.2.2

/-- A run in small letters has no white space at its ends. -/
theorem trim_lower_of_isRun (hrun : isRun word = true) : trim (lower word) = lower word := by
  obtain ⟨hfirst, hlast, hclean⟩ := isRun_iff.mp hrun
  have hends {character? : Option Char} (hmember : ∀ character ∈ character?, character ∈ word)
      (hplain : character?.any isPlainCharacter = true) :
      (character?.map smallLetter).any isWhiteSpace = false := by
    cases character? with
    | none => rfl
    | some capital =>
      have hsmall := smallLetter_of_clean (hclean capital (hmember capital rfl))
      exact hsmall.2.2.2.1.trans (isWhiteSpace_of_isPlainCharacter hplain)
  have hedges := hasPlainEdges_of_isRun hrun
  rw [hasPlainEdges, Bool.and_eq_true] at hedges
  rw [lower_of_clean hclean, trim, trimStart, dropWhile_eq_self_of_head?]
  · refine rdropWhile_eq_self_of_getLast? ?_
    rw [List.getLast?_map]
    exact hends (fun _ ↦ List.mem_of_mem_getLast?) hedges.2
  · rw [List.head?_map]
    exact hends (fun _ ↦ List.mem_of_mem_head?) hedges.1

/-- Runs that match at a tier of whole names are the same in small letters, up to their gaps. -/
theorem normalized_eq_of_matches {tier : Tier} {token name : String} (htier : tier ∈ Tier.wholes)
    (htoken : isRun token.toList = true) (hname : isRun name.toList = true)
    (hmatches : tier.matches token name = true) :
    collapseRuns isGap '_' (lower token.toList) = collapseRuns isGap '_' (lower name.toList) := by
  have hcleaned {text : String} (hrun : isRun text.toList = true) :
      (lower text.toList).filter isClean = lower text.toList :=
    List.filter_eq_self.mpr (clean_lower (isRun_iff.mp hrun).2.2)
  simp only [Tier.wholes, List.mem_cons, List.not_mem_nil, or_false] at htier
  rcases htier with rfl | rfl | rfl | rfl
  · have hsame : lower token.toList = lower name.toList := beq_iff_eq.mp hmatches
    rw [hsame]
  · have hboth := ((Bool.and_eq_true _ _).mp hmatches).2
    have hsame : (lower token.toList).filter isClean = (lower name.toList).filter isClean :=
      beq_iff_eq.mp hboth
    rw [hcleaned htoken, hcleaned hname] at hsame
    rw [hsame]
  · exact beq_iff_eq.mp hmatches
  · have hsame : trim (lower token.toList) = trim (lower name.toList) := beq_iff_eq.mp hmatches
    rw [trim_lower_of_isRun htoken, trim_lower_of_isRun hname] at hsame
    rw [hsame]

/-- Runs that match at a tier of whole names have identifiers that differ in letter case at most. -/
theorem lower_identifier_eq_of_matches {tier : Tier} {token name : String}
    (htier : tier ∈ Tier.wholes) (htoken : isRun token.toList = true)
    (hname : isRun name.toList = true) (hmatches : tier.matches token name = true) :
    lower (identifier token).toList = lower (identifier name).toList := by
  rw [identifier, identifier, String.toList_ofList, String.toList_ofList,
    lower_identifierCharacters (isRun_iff.mp htoken).2.2,
    lower_identifierCharacters (isRun_iff.mp hname).2.2,
    normalized_eq_of_matches htier htoken hname hmatches]

end Formulary.Name
