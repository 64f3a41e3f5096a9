import Formulary.Proofs.Name.LetterCase

/-!
# Lower-casing and separators

White space, commas and underscores have no case, no other character is lowered to one of them, and
none of them lets the surroundings of a sigma be seen across it. So a text is lowered piece by piece
between its separators, `lower_append_cons`, and lowering commutes with all that is done to the
separators of a name: with collapsing their runs, with taking them off the ends, and so with making
an identifier, `lower_identifierCharacters_eq`.
-/

set_option autoImplicit false
set_option relaxedAutoImplicit false

namespace Formulary.Name

open Formulary.Text

variable {character : Char} {text front back before other : List Char} {inClass : Char → Bool}

/-! ### Single characters -/

/-- A separator is its own small letter and has no part in the case of its surroundings. -/
theorem lower_separator (hseparator : isSeparator character = true) :
    lowerCharacter character = [character] ∧ character ≠ 'Σ' ∧ isCased character = false ∧
      isCaseIgnorable character = false := by
  simp only [isSeparator, Bool.or_eq_true, beq_iff_eq] at hseparator
  rcases hseparator with (hwhite | rfl) | rfl
  · exact of_isWhiteSpace
      (fun character ↦ lowerCharacter character = [character] ∧ character ≠ 'Σ' ∧
        isCased character = false ∧ isCaseIgnorable character = false) (by decide +kernel) hwhite
  · decide +kernel
  · decide +kernel

/-- A code point is its own small letter, or its run shifts it. -/
theorem lowerCodeIn_cases (runs : List CaseRun) (code : Nat) :
    lowerCodeIn runs code = code ∨ ∃ run ∈ runs, run.first ≤ code ∧ code ≤ run.last ∧
      lowerCodeIn runs code = (code + run.shift).toNat := by
  induction runs with
  | nil => exact Or.inl rfl
  | cons run later ih =>
    rw [lowerCodeIn]
    split
    · exact Or.inl rfl
    · split
      · rename_i hcontains
        simp only [CaseRun.contains, Bool.and_eq_true, decide_eq_true_eq] at hcontains
        exact Or.inr ⟨run, List.mem_cons_self, hcontains.1.1, hcontains.1.2, rfl⟩
      · refine ih.imp_right ?_
        rintro ⟨other, hother, hbounds⟩
        exact ⟨other, List.mem_cons_of_mem run hother, hbounds⟩

/-- No run of capital letters is shifted to a separator. -/
theorem not_isSeparator_of_shifted : ∀ run ∈ caseRuns,
    ∀ offset ∈ List.range (run.last + 1 - run.first),
      isSeparator (Char.ofNat ((run.first + offset : Nat) + run.shift).toNat) = false := by
  decide +kernel

/-- Only separators have separators as their small letters. -/
theorem not_isSeparator_lowerCharacter (hother : isSeparator character = false) :
    ∀ small ∈ lowerCharacter character, isSeparator small = false := by
  intro small hsmall
  rw [lowerCharacter] at hsmall
  split at hsmall
  · rcases List.mem_pair.mp hsmall with rfl | rfl <;> decide +kernel
  · rw [List.mem_singleton.mp hsmall, lowerCode]
    rcases lowerCodeIn_cases caseRuns character.toNat with
      hsame | ⟨run, hrun, hfirst, hlast, hshift⟩
    · rw [hsame, Char.ofNat_toNat]
      exact hother
    · have hshifted := not_isSeparator_of_shifted run hrun (character.toNat - run.first)
        (List.mem_range.mpr (by omega))
      rw [hshift]
      rwa [Nat.add_sub_cancel' hfirst] at hshifted

/-! ### What stands before and after a sigma -/

theorem meetsCased_cons_of_isSeparator (hseparator : isSeparator character = true)
    (text : List Char) : meetsCased (character :: text) = false := by
  obtain ⟨-, -, hcased, hignorable⟩ := lower_separator hseparator
  simp [meetsCased, hignorable, hcased]

theorem meetsCased_cons_congr (character : Char) (hsame : meetsCased text = meetsCased other) :
    meetsCased (character :: text) = meetsCased (character :: other) := by
  cases hignorable : isCaseIgnorable character with
  | true => simpa [meetsCased, hignorable] using hsame
  | false => simp [meetsCased, hignorable]

/-- Nothing is seen across a separator. -/
theorem meetsCased_append_cons (hseparator : isSeparator character = true)
    (front back : List Char) : meetsCased (front ++ character :: back) = meetsCased front := by
  induction front with
  | nil => exact meetsCased_cons_of_isSeparator hseparator back
  | cons first front ih => exact meetsCased_cons_congr first ih

/-! ### Lowering piece by piece -/

/-- The small letters of a character between what stands before it, read backwards, and what
follows. -/
def smallLetters (before : List Char) (character : Char) (after : List Char) : List Char :=
  if character = 'Σ' then [lowerSigma before after] else lowerCharacter character

theorem lowerAfter_cons (before : List Char) (character : Char) (text : List Char) :
    lowerAfter before (character :: text) =
      smallLetters before character text ++ lowerAfter (character :: before) text := rfl

theorem smallLetters_congr {after later : List Char} (character : Char)
    (hbefore : meetsCased before = meetsCased other)
    (hafter : meetsCased after = meetsCased later) :
    smallLetters before character after = smallLetters other character later := by
  rw [smallLetters, smallLetters, lowerSigma, lowerSigma, hbefore, hafter]

theorem smallLetters_ne_nil (before : List Char) (character : Char) (after : List Char) :
    smallLetters before character after ≠ [] := by
  unfold smallLetters lowerCharacter
  split_ifs <;> exact List.cons_ne_nil _ _

theorem not_isSeparator_smallLetters (hother : isSeparator character = false)
    (before after : List Char) :
    ∀ small ∈ smallLetters before character after, isSeparator small = false := by
  intro small hsmall
  rw [smallLetters] at hsmall
  split at hsmall
  · rw [List.mem_singleton.mp hsmall, lowerSigma]
    split <;> decide +kernel
  · exact not_isSeparator_lowerCharacter hother small hsmall

/-- What stands before a text matters to it by the case that is met there alone. -/
theorem lowerAfter_congr (hsame : meetsCased before = meetsCased other) (text : List Char) :
    lowerAfter before text = lowerAfter other text := by
  induction text generalizing before other with
  | nil => rfl
  | cons character text ih =>
    rw [lowerAfter_cons, lowerAfter_cons, smallLetters_congr character hsame rfl,
      ih (meetsCased_cons_congr character hsame)]

theorem lowerAfter_append_cons (hseparator : isSeparator character = true)
    (before front back : List Char) :
    lowerAfter before (front ++ character :: back) =
      lowerAfter before front ++ character :: lower back := by
  induction front generalizing before with
  | nil =>
    obtain ⟨hsmall, hsigma, -⟩ := lower_separator hseparator
    have hclosed : meetsCased (character :: before) = meetsCased [] :=
      meetsCased_cons_of_isSeparator hseparator before
    rw [List.nil_append, lowerAfter_cons, smallLetters, if_neg hsigma, hsmall,
      lowerAfter_congr hclosed back]
    rfl
  | cons first front ih =>
    rw [List.cons_append, lowerAfter_cons, lowerAfter_cons, ih, List.append_assoc,
      smallLetters_congr first rfl (meetsCased_append_cons hseparator front back)]

/-- A text is lowered piece by piece between its separators. -/
theorem lower_append_cons (hseparator : isSeparator character = true) (front back : List Char) :
    lower (front ++ character :: back) = lower front ++ character :: lower back :=
  lowerAfter_append_cons hseparator [] front back

theorem lower_cons_of_isSeparator (hseparator : isSeparator character = true) (text : List Char) :
    lower (character :: text) = character :: lower text :=
  lower_append_cons hseparator [] text

theorem lower_concat_of_isSeparator (hseparator : isSeparator character = true)
    (text : List Char) : lower (text ++ [character]) = lower text ++ [character] :=
  lower_append_cons hseparator text []

/-- A text of which some character is no separator has such a character in small letters. -/
theorem exists_not_isSeparator_lower (hother : ∃ character ∈ text, isSeparator character = false) :
    ∃ character ∈ lower text, isSeparator character = false := by
  have hafter (before : List Char) :
      ∃ character ∈ lowerAfter before text, isSeparator character = false := by
    induction text generalizing before with
    | nil => simp at hother
    | cons first text ih =>
      rw [lowerAfter_cons]
      cases hfirst : isSeparator first with
      | false =>
        obtain ⟨small, hsmall⟩ :=
          List.exists_mem_of_ne_nil _ (smallLetters_ne_nil before first text)
        exact ⟨small, List.mem_append_left _ hsmall,
          not_isSeparator_smallLetters hfirst before text small hsmall⟩
      | true =>
        obtain ⟨character, hmember, hcharacter⟩ := hother
        have hlater : character ∈ text := (List.mem_cons.mp hmember).resolve_left fun hsame ↦ by
          rw [hsame, hfirst] at hcharacter
          cases hcharacter
        obtain ⟨small, hsmall, hnone⟩ := ih ⟨character, hlater, hcharacter⟩ (first :: before)
        exact ⟨small, List.mem_append_right _ hsmall, hnone⟩
  exact hafter []

/-- A separator occurs in a text where it occurs in the small letters. -/
theorem mem_lower_iff (hseparator : isSeparator character = true) :
    character ∈ lower text ↔ character ∈ text := by
  have hafter (before : List Char) : character ∈ lowerAfter before text → character ∈ text := by
    induction text generalizing before with
    | nil => exact fun hmember ↦ hmember
    | cons first text ih =>
      rw [lowerAfter_cons, List.mem_append, List.mem_cons]
      refine Or.imp (fun hletter ↦ ?_) (ih _)
      cases hfirst : isSeparator first with
      | false =>
        rw [not_isSeparator_smallLetters hfirst before text character hletter] at hseparator
        cases hseparator
      | true =>
        obtain ⟨hsmall, hsigma, -⟩ := lower_separator hfirst
        rw [smallLetters, if_neg hsigma, hsmall] at hletter
        exact List.mem_singleton.mp hletter
  refine ⟨hafter [], fun hmember ↦ ?_⟩
  obtain ⟨front, back, rfl⟩ := List.append_of_mem hmember
  rw [lower_append_cons hseparator]
  exact List.mem_append_right _ List.mem_cons_self

/-! ### The ends of a text -/

section

variable (hclass : ∀ character, inClass character = true → isSeparator character = true)

include hclass

theorem not_inClass_of_not_isSeparator (hother : isSeparator character = false) :
    inClass character = false := by
  refine Bool.eq_false_iff.mpr fun hhere ↦ ?_
  rw [hclass character hhere] at hother
  cases hother

/-- A text starts with a character of a class of separators just where its small letters do. -/
theorem head?_lower_any (text : List Char) :
    (lower text).head?.any inClass = text.head?.any inClass := by
  cases text with
  | nil => rfl
  | cons first text =>
    cases hfirst : isSeparator first with
    | true => rw [lower_cons_of_isSeparator hfirst, List.head?_cons, List.head?_cons]
    | false =>
      obtain ⟨small, others, hsmall⟩ :=
        List.exists_cons_of_ne_nil (smallLetters_ne_nil [] first text)
      have hnone : isSeparator small = false :=
        not_isSeparator_smallLetters hfirst [] text small (hsmall ▸ List.mem_cons_self)
      rw [lower, lowerAfter_cons, hsmall]
      exact (not_inClass_of_not_isSeparator hclass hnone).trans
        (not_inClass_of_not_isSeparator hclass hfirst).symm

/-- A text ends with a character of a class of separators just where its small letters do. -/
theorem getLast?_lower_any (text : List Char) :
    (lower text).getLast?.any inClass = text.getLast?.any inClass := by
  rcases List.eq_nil_or_concat text with rfl | ⟨front, last, rfl⟩
  · rfl
  · rw [List.concat_eq_append]
    cases hlast : isSeparator last with
    | true => rw [lower_concat_of_isSeparator hlast, List.getLast?_concat, List.getLast?_concat]
    | false =>
      have hafter (before : List Char) : ∃ others small, isSeparator small = false ∧
          lowerAfter before (front ++ [last]) = others ++ [small] := by
        induction front generalizing before with
        | nil =>
          have hletters := smallLetters_ne_nil before last []
          refine ⟨(smallLetters before last []).dropLast,
            (smallLetters before last []).getLast hletters,
            not_isSeparator_smallLetters hlast before [] _ (List.getLast_mem hletters), ?_⟩
          rw [List.dropLast_append_getLast, List.nil_append, lowerAfter_cons, lowerAfter,
            List.append_nil]
        | cons first front ih =>
          obtain ⟨others, small, hsmall, hlowered⟩ := ih (first :: before)
          exact ⟨_, small, hsmall, by rw [List.cons_append, lowerAfter_cons, hlowered,
            ← List.append_assoc]⟩
      obtain ⟨others, small, hsmall, hlowered⟩ := hafter []
      rw [lower, hlowered, List.getLast?_concat, List.getLast?_concat]
      exact (not_inClass_of_not_isSeparator hclass hsmall).trans
        (not_inClass_of_not_isSeparator hclass hlast).symm

/-- Lowering commutes with dropping separators in front. -/
theorem dropWhile_lower (text : List Char) :
    (lower text).dropWhile inClass = lower (text.dropWhile inClass) := by
  induction text with
  | nil => rfl
  | cons first text ih =>
    cases hfirst : inClass first with
    | true =>
      rw [lower_cons_of_isSeparator (hclass first hfirst), List.dropWhile_cons_of_pos hfirst,
        List.dropWhile_cons_of_pos hfirst, ih]
    | false =>
      have hkept : ¬inClass first = true := Bool.eq_false_iff.mp hfirst
      have hhead : (lower (first :: text)).head?.any inClass = false :=
        (head?_lower_any hclass _).trans hfirst
      rw [List.dropWhile_cons_of_neg hkept]
      exact dropWhile_eq_self_of_head? hhead

/-- Lowering commutes with dropping separators at the end. -/
theorem rdropWhile_lower (text : List Char) :
    (lower text).rdropWhile inClass = lower (text.rdropWhile inClass) := by
  induction text using List.reverseRecOn with
  | nil => rfl
  | append_singleton text last ih =>
    cases hlast : inClass last with
    | true =>
      rw [lower_concat_of_isSeparator (hclass last hlast), List.rdropWhile_concat_pos _ _ _ hlast,
        List.rdropWhile_concat_pos _ _ _ hlast, ih]
    | false =>
      have hkept : ¬inClass last = true := Bool.eq_false_iff.mp hlast
      have hend : (lower (text ++ [last])).getLast?.any inClass = false := by
        rw [getLast?_lower_any hclass, List.getLast?_concat]
        exact hlast
      rw [List.rdropWhile_concat_neg _ _ _ hkept]
      exact rdropWhile_eq_self_of_getLast? hend

end

/-- Lowering commutes with trimming. -/
theorem trim_lower (text : List Char) : trim (lower text) = lower (trim text) := by
  show ((lower text).dropWhile isWhiteSpace).rdropWhile isWhiteSpace = _
  rw [dropWhile_lower fun _ ↦ isSeparator_of_isWhiteSpace,
    rdropWhile_lower fun _ ↦ isSeparator_of_isWhiteSpace]
  rfl

/-- Lowering commutes with taking underscores off the ends. -/
theorem strip_lower (text : List Char) : strip '_' (lower text) = lower (strip '_' text) := by
  have hclass (character : Char) (hmark : (character == '_') = true) :
      isSeparator character = true := by
    rw [isSeparator, hmark, Bool.or_true]
  rw [strip_eq_rdropWhile, dropWhile_lower hclass, rdropWhile_lower hclass, strip_eq_rdropWhile]

/-! ### Runs of separators -/

theorem meetsCased_collapseRuns (text : List Char) :
    meetsCased (collapseFrom isSeparator '_' false text) = meetsCased text := by
  induction text with
  | nil => rfl
  | cons first text ih =>
    rw [collapseFrom]
    split
    · rename_i hfirst
      exact (meetsCased_cons_of_isSeparator (by decide) _).trans
        (meetsCased_cons_of_isSeparator hfirst text).symm
    · exact meetsCased_cons_congr first ih

/-- Some characters outside of a class end a run. -/
theorem collapseFrom_append_of_not_class {mark : Char} (hfront : front ≠ [])
    (hclass : ∀ character ∈ front, inClass character = false) (inside : Bool) (back : List Char) :
    collapseFrom inClass mark inside (front ++ back) =
      front ++ collapseFrom inClass mark false back := by
  induction front generalizing inside with
  | nil => exact absurd rfl hfront
  | cons first front ih =>
    have hfirst : ¬inClass first = true := Bool.eq_false_iff.mp (hclass first List.mem_cons_self)
    rw [List.cons_append, collapseFrom, if_neg hfirst, List.cons_append]
    rcases List.eq_nil_or_concat front with rfl | ⟨_, _, hconcat⟩
    · rfl
    · rw [ih (by simp [hconcat])
        fun character hmember ↦ hclass character (List.mem_cons_of_mem first hmember)]

/-- Lowering commutes with collapsing runs of separators, where no case is met across the run that
the text goes on with. -/
theorem lowerAfter_collapseFrom {inside : Bool}
    (hinside : inside = true → meetsCased before = false) (text : List Char) :
    lowerAfter before (collapseFrom isSeparator '_' inside text) =
      collapseFrom isSeparator '_' inside (lowerAfter before text) := by
  induction text generalizing before inside with
  | nil => rfl
  | cons first text ih =>
    cases hfirst : isSeparator first with
    | true =>
      have hrest : lower (collapseFrom isSeparator '_' true text) =
          collapseFrom isSeparator '_' true (lower text) := ih fun _ ↦ rfl
      have hlowered : lowerAfter before (first :: text) = first :: lower text :=
        lowerAfter_append_cons hfirst before [] text
      rw [hlowered, collapseFrom, collapseFrom, if_pos hfirst, if_pos hfirst]
      split
      · rename_i hin
        rw [← hrest]
        exact lowerAfter_congr (hinside hin) _
      · rw [← hrest]
        exact lowerAfter_append_cons (by decide) before [] _
    | false =>
      have hkept : ¬isSeparator first = true := Bool.eq_false_iff.mp hfirst
      rw [collapseFrom, if_neg hkept, lowerAfter_cons, lowerAfter_cons,
        collapseFrom_append_of_not_class (smallLetters_ne_nil before first text)
          (not_isSeparator_smallLetters hfirst before text),
        ih fun hin ↦ absurd hin Bool.false_ne_true,
        smallLetters_congr first rfl (meetsCased_collapseRuns text)]

/-- Lowering commutes with making an identifier. -/
theorem lower_identifierCharacters_eq (name : List Char) :
    lower (identifierCharacters name) = identifierCharacters (lower name) := by
  rw [identifierCharacters, ← strip_lower, identifierCharacters]
  exact congrArg (strip '_') (lowerAfter_collapseFrom (fun h ↦ absurd h Bool.false_ne_true) name)

end Formulary.Name
