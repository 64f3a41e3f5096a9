import Formulary.Proofs.Formula.Gaps
import Formulary.Proofs.Registry.RunwiseRewriting

/-!
# Formulas that can be parsed when they are rewritten

If a formula can be parsed once the registered names in it are replaced, then none of its runs of
several words stands directly behind a digit, since the white space in it would be left between two
characters of names, `digitsApart_of_hasNoGaps`. So such a formula is rewritten run by run, and each
name in the result that starts with a letter is a reserved word or the identifier of a run,
`mem_or_exists_run_of_standsIn`.
-/

set_option autoImplicit false
set_option relaxedAutoImplicit false

namespace Formulary.Name

open Formulary.Formula Formulary.Text

variable {before : Option Char} {word rest text : List Char} {cut : List Piece} {rules : List Rule}

/-! ### Runs behind a digit -/

theorem unopened_of_white {gap : List Char} (hgap : gap.all isWhiteSpace = true) :
    Unopened before gap := by
  induction gap generalizing before with
  | nil => trivial
  | cons character gap ih =>
    rw [List.all_cons, Bool.and_eq_true] at hgap
    have hstart := isPlainStart_of_not_plain (isPlainCharacter_of_isWhiteSpace hgap.1)
    exact ⟨fun h ↦ absurd (hstart.symm.trans h) Bool.false_ne_true, ih hgap.2⟩

/-- A text that starts with a plain character still does when names are replaced. -/
theorem Identifying.head?_replaceFrom (hrules : Identifying rules)
    (hhead : text.head?.any isPlainCharacter = true) :
    (replaceFrom rules before 0 text).head?.any isPlainCharacter = true := by
  cases text with
  | nil => cases hhead
  | cons character text =>
    rw [replaceFrom]
    split
    · rename_i rule hfound
      have hrule := List.mem_of_find?_eq_some hfound
      obtain ⟨first, others, hidentifier⟩ :=
        List.exists_cons_of_ne_nil (hrules.nonempty rule hrule)
      have hclean := (isRun_iff.mp (hrules.runs rule hrule)).2.2
      rw [hrules.replacements rule hrule, hidentifier]
      refine all_plain_identifierCharacters hclean first ?_
      rw [hidentifier]
      exact List.mem_cons_self
    · exact hhead

theorem takeWhile_ne_nil {inClass : Char → Bool} (hfirst : text.head?.any inClass = true) :
    text.takeWhile inClass ≠ [] := by
  cases text with
  | nil => cases hfirst
  | cons first others =>
    have hclass : inClass first = true := hfirst
    rw [List.takeWhile_cons, if_pos hclass]
    exact List.cons_ne_nil _ _

/-- A clean text starts with a plain character or with white space. -/
theorem head?_plain_or_white (hclean : ∀ character ∈ text, isClean character = true)
    (hsome : text ≠ []) :
    text.head?.any isPlainCharacter = true ∨ text.head?.any isWhiteSpace = true := by
  obtain ⟨first, others, rfl⟩ := List.exists_cons_of_ne_nil hsome
  exact (Bool.or_eq_true _ _).mp (hclean first List.mem_cons_self)

/-- A run with white space in it falls into a word, a gap and what starts with a plain character. -/
theorem exists_gap_of_isRun (hrun : isRun word = true)
    (hbroken : word.all isPlainCharacter = false) :
    ∃ front gap back, word = front ++ (gap ++ back) ∧ front ≠ [] ∧ gap ≠ [] ∧
      front.all isPlainCharacter = true ∧ gap.all isWhiteSpace = true ∧
        back.head?.any isPlainCharacter = true := by
  have hclean := (isRun_iff.mp hrun).2.2
  have hedges := hasPlainEdges_of_isRun hrun
  rw [hasPlainEdges, Bool.and_eq_true] at hedges
  have hsplit := @List.takeWhile_append_dropWhile _ isPlainCharacter word
  have hother := head?_dropWhile_any isPlainCharacter word
  have hrest := List.dropWhile_suffix isPlainCharacter (l := word)
  -- what stands behind the first word
  generalize word.dropWhile isPlainCharacter = rest at hsplit hother hrest
  have hback := head?_dropWhile_any isWhiteSpace rest
  have hsome : rest ≠ [] := by
    rintro rfl
    rw [List.append_nil] at hsplit
    rw [← hsplit, List.all_takeWhile] at hbroken
    cases hbroken
  have hgap : rest.head?.any isWhiteSpace = true :=
    (head?_plain_or_white (fun character hcharacter ↦ hclean character (hrest.subset hcharacter))
      hsome).resolve_left (Bool.eq_false_iff.mp hother)
  have hbehind : rest.dropWhile isWhiteSpace ≠ [] := by
    intro hnone
    have hwhite := List.dropWhile_eq_nil_iff.mp hnone _ (List.getLast_mem hsome)
    have hlast := hedges.2
    rw [← hsplit, List.getLast?_append, List.getLast?_eq_some_getLast hsome] at hlast
    exact Bool.false_ne_true ((isPlainCharacter_of_isWhiteSpace hwhite).symm.trans hlast)
  refine ⟨word.takeWhile isPlainCharacter, rest.takeWhile isWhiteSpace,
    rest.dropWhile isWhiteSpace, ?_, takeWhile_ne_nil hedges.1, takeWhile_ne_nil hgap,
    List.all_takeWhile, List.all_takeWhile, ?_⟩
  · rw [List.takeWhile_append_dropWhile, hsplit]
  · have hend := (List.dropWhile_suffix isWhiteSpace).trans hrest
    exact (head?_plain_or_white (fun character hcharacter ↦
      hclean character (hend.subset hcharacter)) hbehind).resolve_right (Bool.eq_false_iff.mp hback)

/-- Where rewriting a run behind a digit leaves no gap, the run is a single word. -/
theorem all_plain_of_hasNoGaps (hrules : Identifying rules) (hrun : isRun word = true)
    (hdigit : before.any isAsciiDigit = true)
    (hgaps : HasNoGaps (replaceFrom rules before 0 (word ++ rest))) :
    word.all isPlainCharacter = true := by
  by_contra hbroken
  obtain ⟨front, gap, back, rfl, hfront, hgap, hplain, hwhite, hback⟩ :=
    exists_gap_of_isRun hrun (Bool.eq_false_iff.mpr hbroken)
  have hunopened : Unopened before (front ++ gap) :=
    unopened_append.mpr ⟨unopened_of_plain hplain (plain_of_digit hdigit), unopened_of_white hwhite⟩
  have hkept : replaceFrom rules before 0 (front ++ (gap ++ back) ++ rest) =
      front ++ (gap ++ replaceFrom rules (lastOr before (front ++ gap)) 0 (back ++ rest)) := by
    have htext : front ++ (gap ++ back) ++ rest = front ++ gap ++ (back ++ rest) := by simp
    rw [htext, replaceFrom_of_unopened hrules.opens hunopened, List.append_assoc]
  have hstart : (back ++ rest).head?.any isPlainCharacter = true := by
    cases back with
    | nil => cases hback
    | cons next back => exact hback
  have hlast : front.getLast?.any isNameCharacter = true := by
    rw [List.getLast?_eq_some_getLast hfront]
    exact (classes_of_isPlainCharacter
      (List.all_eq_true.mp hplain _ (List.getLast_mem hfront))).1
  have hother := hgaps front gap _ hkept hgap hwhite hlast
  have hhead (last : Option Char) :
      (replaceFrom rules last 0 (back ++ rest)).head?.any isNameCharacter = true :=
    (any_isNameCharacter_of_plain (hrules.head?_replaceFrom hstart)).1
  exact Bool.false_ne_true (hother.symm.trans (hhead _))

/-- Where rewriting leaves no gaps, no run of several words stands directly behind a digit. -/
theorem digitsApart_of_hasNoGaps {pairs : List (String × String)}
    (hrules : Identifying (Substitution.ofPairs pairs).rules) (hcut : Dissects cut text)
    (hclear : Clear before cut) (hbefore : ∀ character ∈ before, character.toNat < 128)
    (hascii : ∀ character ∈ text, character.toNat < 128)
    (hregistered : ∀ word before, .run word ∈ cut → isKept before word = false →
      ⟨word, identifierCharacters word⟩ ∈ (Substitution.ofPairs pairs).rules)
    (hgaps : HasNoGaps (replaceFrom (Substitution.ofPairs pairs).rules before 0 text)) :
    digitsApart before cut = true := by
  induction hcut generalizing before with
  | nil => rfl
  | @other character others rest hstart _ ih =>
    rw [hrules.replaceFrom_other hstart, ← List.singleton_append] at hgaps
    refine (digitsApart_cons _ _).mpr
      ⟨fun _ ↦ rfl, ih (fun _ _ _ ↦ hstart) ?_ ?_ ?_ hgaps.of_append⟩
    · rintro other ⟨⟩
      exact hascii character List.mem_cons_self
    · exact fun other hother ↦ hascii other (List.mem_cons_of_mem character hother)
    · exact fun word before hword ↦ hregistered word before (List.mem_cons_of_mem _ hword)
  | @run word others rest hrun hends hothers ih =>
    have hunbroken : before.any isAsciiDigit = true → word.all isPlainCharacter = true :=
      fun hdigit ↦ all_plain_of_hasNoGaps hrules hrun hdigit hgaps
    rw [replaceFrom_run hrules hrun hends hclear hbefore hascii hunbroken
      (hregistered word before List.mem_cons_self)] at hgaps
    refine (digitsApart_cons _ _).mpr ⟨hunbroken, ih (clear_of_endsRun hothers hends)
      (isAscii_of_lastOr hbefore hascii) ?_ ?_ hgaps.of_append⟩
    · exact fun character hcharacter ↦ hascii character (List.mem_append_right word hcharacter)
    · exact fun word before hword ↦ hregistered word before (List.mem_cons_of_mem _ hword)

/-! ### Names in the rewritten text -/

/-- A name that stands apart and reaches into a plain word is the word. -/
theorem eq_of_reaches {excess behind front leaf back : List Char}
    (hword : (front ++ excess).all isPlainCharacter = true)
    (hsplit : leaf ++ back = excess ++ behind)
    (hleaf : leaf.all isPlainCharacter = true) (hback : back.head?.any isPlainCharacter = false)
    (hbehind : behind.head?.any isPlainCharacter = false)
    (hfront : (lastOr before front).any isPlainCharacter = false) :
    front = [] ∧ leaf = excess := by
  rw [List.all_append, Bool.and_eq_true] at hword
  constructor
  · by_contra hsome
    rw [lastOr, List.getLast?_eq_some_getLast hsome] at hfront
    have hother : isPlainCharacter (front.getLast hsome) = false := hfront
    have hplain := List.all_eq_true.mp hword.1 _ (List.getLast_mem hsome)
    exact Bool.false_ne_true (hother.symm.trans hplain)
  · rw [← (takeWhile_run hleaf hback).1, hsplit, (takeWhile_run hword.2 hbehind).1]

theorem isAsciiLetter_of_mem_separators (hempty : identifierCharacters word = [])
    {first : Char} (hfirst : first ∈ word) : isAsciiLetter first = false := by
  refine Bool.eq_false_iff.mpr fun hletter ↦ ?_
  have hseparator := (identifierCharacters_eq_nil_iff word).mp hempty first hfirst
  exact Bool.false_ne_true ((isSeparator_of_isAsciiLetter hletter).2.1.symm.trans hseparator)

/-- A name that stands apart and starts with a letter inside the text of a run is a reserved word or
the identifier of the run. -/
theorem mem_or_eq_of_reaches (hrun : isRun word = true)
    (hapart : before.any isAsciiDigit = true → word.all isPlainCharacter = true)
    {letter : Char} {excess behind front leaf back : List Char}
    (hexcess : (Piece.run word).normalized before = front ++ letter :: excess)
    (hletter : isAsciiLetter letter = true) (hsplit : leaf ++ back = letter :: excess ++ behind)
    (hleaf : leaf.all isPlainCharacter = true) (hback : back.head?.any isPlainCharacter = false)
    (hbehind : behind.head?.any isPlainCharacter = false)
    (hfront : (lastOr before front).any isPlainCharacter = false) :
    String.ofList leaf ∈ reservedWords ∨
      isKept none word = false ∧ leaf = identifierCharacters word := by
  have hwhole := fun hword ↦ eq_of_reaches hword hsplit hleaf hback hbehind hfront
  rw [Piece.normalized] at hexcess
  split at hexcess
  · rename_i hkept
    subst hexcess
    rw [isKept, Bool.or_eq_true, Bool.or_eq_true] at hkept
    rcases hkept with (hreserved | hempty) | hdigit
    · have hmember := List.contains_iff_mem.mp hreserved
      obtain ⟨_, hword, _⟩ := identifierCharacters_of_mem_reservedWords hmember
      rw [String.toList_ofList] at hword
      obtain ⟨rfl, hsame⟩ := hwhole hword
      exact Or.inl (by rwa [hsame])
    · have hother := isAsciiLetter_of_mem_separators (List.isEmpty_iff.mp hempty)
        (List.mem_append_right front List.mem_cons_self)
      exact absurd (hother.symm.trans hletter) Bool.false_ne_true
    · obtain ⟨rfl, _⟩ := hwhole (hapart hdigit)
      exact absurd (hfront.symm.trans (plain_of_digit hdigit)) Bool.false_ne_true
  · rename_i hkept
    have hword := List.all_eq_true.mpr (all_plain_identifierCharacters (isRun_iff.mp hrun).2.2)
    rw [hexcess] at hword
    obtain ⟨rfl, hsame⟩ := hwhole hword
    obtain ⟨hfree, hidentifier, _⟩ := isKept_eq_false_iff.mp (Bool.eq_false_iff.mpr hkept)
    exact Or.inr ⟨isKept_eq_false_iff.mpr ⟨hfree, hidentifier, rfl⟩, hsame.trans hexcess.symm⟩

/-- A name that stands apart in the rewritten text and starts with a letter is a reserved word or
the identifier of a run. -/
theorem mem_or_exists_run_of_standsIn (hcut : Dissects cut text)
    (hapart : digitsApart before cut = true) {front leaf back : List Char}
    (hfirst : leaf.head?.any isAsciiLetter = true) (hleaf : leaf.all isPlainCharacter = true)
    (hsplit : normalizedFrom before cut = front ++ (leaf ++ back))
    (hfront : (lastOr before front).any isPlainCharacter = false)
    (hback : back.head?.any isPlainCharacter = false) :
    String.ofList leaf ∈ reservedWords ∨
      ∃ word, .run word ∈ cut ∧ isKept none word = false ∧ leaf = identifierCharacters word := by
  obtain ⟨letter, letters, rfl⟩ : ∃ letter letters, leaf = letter :: letters := by
    cases leaf with
    | nil => cases hfirst
    | cons letter letters => exact ⟨letter, letters, rfl⟩
  have hletter : isAsciiLetter letter = true := hfirst
  have hplain := isPlainCharacter_of_isAsciiLetter hletter
  induction hcut generalizing before front with
  | nil => cases front <;> cases hsplit
  | @other character others rest hstart _ ih =>
    rw [digitsApart_cons] at hapart
    have hlater : character :: normalizedFrom (some character) others =
        front ++ (letter :: letters ++ back) := hsplit
    cases front with
    | nil =>
      obtain ⟨rfl, _⟩ := List.cons.inj hlater
      rw [isPlainStart, hletter] at hstart
      cases hstart
    | cons first front =>
      obtain ⟨rfl, hrest⟩ := List.cons.inj hlater
      rw [lastOr_cons] at hfront
      refine (ih hapart.2 hfront hrest).imp_right ?_
      rintro ⟨word, hword, hidentifier⟩
      exact ⟨word, List.mem_cons_of_mem _ hword, hidentifier⟩
  | @run word others rest hrun hends hothers ih =>
    rw [digitsApart_cons] at hapart
    have hbehind :
        (normalizedFrom (lastOr before word) others).head?.any isPlainCharacter = false :=
      (endsRun_normalizedFrom hothers hends).head?
    have hstarts : normalizedFrom (lastOr before word) others ≠ letter :: letters ++ back := by
      intro hsame
      rw [hsame] at hbehind
      exact Bool.false_ne_true (hbehind.symm.trans hplain)
    have hparts : (Piece.run word).normalized before ++ normalizedFrom (lastOr before word) others =
        front ++ (letter :: letters ++ back) := hsplit
    rcases List.append_eq_append_iff.mp hparts with ⟨gap, rfl, hgap⟩ | ⟨excess, hexcess, hreach⟩
    · -- the name lies behind the run
      have hsome : gap ≠ [] := by
        rintro rfl
        exact hstarts hgap
      rw [lastOr_append, lastOr_of_ne_nil hsome _ (lastOr before word)] at hfront
      refine (ih hapart.2 hfront hgap).imp_right ?_
      rintro ⟨word, hword, hidentifier⟩
      exact ⟨word, List.mem_cons_of_mem _ hword, hidentifier⟩
    · -- the name starts inside the run
      obtain ⟨first, others, rfl⟩ : ∃ first others, excess = first :: others := by
        cases excess with
        | nil => exact absurd hreach.symm hstarts
        | cons first others => exact ⟨first, others, rfl⟩
      obtain rfl := (List.cons.inj hreach).1
      refine (mem_or_eq_of_reaches hrun hapart.1 hexcess hletter hreach hleaf hback hbehind
        hfront).imp_right fun hreached ↦ ?_
      exact ⟨word, List.mem_cons_self, hreached⟩

end Formulary.Name
