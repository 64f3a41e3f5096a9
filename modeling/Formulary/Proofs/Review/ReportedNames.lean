import Formulary.Proofs.Name.CandidateRuns
import Formulary.Proofs.Name.TierUnion
import Formulary.Proofs.Registry.Run
import Formulary.Review

/-!
# Names that a review reports

A review recognises that it has reported a token by looking for the token between apostrophes in the
wordings of its findings. No candidate of a formula holds an apostrophe, and neither does the rest
of the wording, so the search succeeds just for the token that the finding is about,
`quotes_message_iff`, however much of one token stands in another. Hence the findings are those of
the distinct candidates that name nothing, `reviewNames_eq`, and the main statement,
`reviewNames_reports_once`, says which ones these are and in which order they come.
-/

set_option autoImplicit false
set_option relaxedAutoImplicit false

namespace Formulary

open Formulary.Name Formulary.Text

variable {solution : Solution} {calculation : Calculation} {reserved tokens : List String}
variable {token other : String}

/-! ### Tokens that name a record -/

/-- A token names a record of a solution at one of the exact tiers. -/
def Solution.Names (solution : Solution) (token : String) : Prop :=
  ∃ tier ∈ Tier.wholes, ∃ name ∈ solution.declaredNames, tier.matches token name = true

theorem isResolved_iff (token : String) :
    isResolved solution token = true ↔ solution.Names token := by
  rw [isResolved, Bool.or_eq_true, resolve, resolve, isSome_resolveAmong_iff,
    isSome_resolveAmong_iff]
  simp only [Solution.Names, Solution.declaredNames, List.mem_append, List.mem_map, or_and_right,
    exists_or, and_or_left, exists_exists_and_eq_and]
  rfl

/-! ### Quoted tokens -/

/-- Of a text with one pair of marks, what is found between marks is what stands between them. -/
theorem marked_isInfix_iff {mark : Char} {part word rest : List Char} (hword : mark ∉ word)
    (hrest : mark ∉ rest) :
    mark :: (part ++ [mark]) <:+: mark :: (word ++ mark :: rest) ↔ part = word := by
  constructor
  · rintro ⟨before, after, hsplit⟩
    simp only [List.append_assoc, List.cons_append, List.nil_append] at hsplit
    cases before with
    | nil =>
      rw [List.nil_append, List.cons.injEq] at hsplit
      exact ((List.append_cons_inj_of_notMem hword hrest).mp hsplit.2.symm).1.symm
    | cons first before =>
      -- The first mark of the part would be the second one of the text, and none is left for the
      -- other one of the part.
      rw [List.cons_append, List.cons.injEq] at hsplit
      obtain ⟨-, -, hafter⟩ := (List.append_cons_inj_of_notMem hword hrest).mp hsplit.2.symm
      exact absurd (hafter ▸ List.mem_append_right part List.mem_cons_self) hrest
  · rintro rfl
    exact ⟨[], rest, by simp⟩

/-- The mark around a token in the wording of a finding. -/
def apostrophe : Char := '\x27'

theorem toList_quoted (token : String) :
    s!"'{token}'".toList = apostrophe :: (token.toList ++ [apostrophe]) := by
  change ("'" ++ token ++ "'").toList = _
  rw [String.toList_append, String.toList_append]
  rfl

theorem toList_message (token : String) :
    (Fault.unresolvedReference token).message.toList = apostrophe :: (token.toList ++ apostrophe ::
      " does not match any parameter or calculation.".toList) := by
  change ("'" ++ token ++ "' does not match any parameter or calculation.").toList = _
  rw [String.toList_append, String.toList_append, List.append_assoc]
  rfl

/-- The wording of a finding about a token without apostrophes quotes that token only. -/
theorem quotes_message_iff (htoken : apostrophe ∉ token.toList) :
    occursIn s!"'{other}'".toList (Fault.unresolvedReference token).message.toList = true ↔
      other = token := by
  rw [occursIn_iff_isInfix, toList_quoted, toList_message,
    marked_isInfix_iff htoken (by decide), String.toList_inj]

/-- Candidates hold no apostrophes. -/
theorem apostrophe_not_mem {formula : String} (htoken : token ∈ candidates formula reserved) :
    apostrophe ∉ token.toList := by
  obtain ⟨run, hrun, rfl⟩ := List.mem_map.mp (List.mem_of_mem_filter htoken)
  rw [String.toList_ofList]
  intro hmember
  have hclean := (isRun_iff.mp (isRun_of_mem_runs hrun)).2.2 apostrophe hmember
  exact absurd hclean (by decide)

/-! ### Distinct tokens -/

section Distinct

variable {Item : Type} [DecidableEq Item]

theorem eraseDups_filter (keeps : Item → Bool) (items : List Item) :
    (items.filter keeps).eraseDups = items.eraseDups.filter keeps := by
  induction items using List.reverseRecOn with
  | nil => rfl
  | append_singleton items item ih =>
    rw [List.filter_append, eraseDups_append_singleton]
    cases hkeeps : keeps item with
    | false =>
      rw [List.filter_singleton, hkeeps]
      split <;> simp [ih, hkeeps]
    | true =>
      rw [List.filter_singleton, hkeeps]
      simp only [cond_true, eraseDups_append_singleton, List.mem_filter, hkeeps, and_true]
      split <;> simp [ih, hkeeps]

/-- Distinct items stand in the order in which they come first. -/
theorem eraseDups_in_order (items : List Item) :
    items.eraseDups.Pairwise fun earlier later ↦ items.idxOf earlier < items.idxOf later := by
  induction items using List.reverseRecOn with
  | nil => exact .nil
  | append_singleton items item ih =>
    have hold : items.eraseDups.Pairwise fun earlier later ↦
        (items ++ [item]).idxOf earlier < (items ++ [item]).idxOf later := by
      refine ih.imp_of_mem fun hearlier hlater hless ↦ ?_
      rwa [List.idxOf_append_of_mem (List.mem_eraseDups.mp hearlier),
        List.idxOf_append_of_mem (List.mem_eraseDups.mp hlater)]
    rw [eraseDups_append_singleton]
    split
    · exact hold
    · rename_i hnew
      refine List.pairwise_append.mpr ⟨hold, List.pairwise_singleton _ _, ?_⟩
      intro earlier hearlier later hlater
      rw [List.mem_eraseDups] at hearlier
      rw [List.mem_singleton.mp hlater, List.idxOf_append_of_mem hearlier,
        List.idxOf_append_of_notMem hnew]
      exact Nat.lt_add_right _ (List.idxOf_lt_length_of_mem hearlier)

end Distinct

/-! ### Findings -/

/-- Findings about tokens without apostrophes quote these tokens and no others. -/
theorem isReported_iff (htokens : ∀ token ∈ tokens, apostrophe ∉ token.toList) (id : String) :
    isReported (tokens.map fun token ↦ ⟨id, .unresolvedReference token⟩) other = true ↔
      other ∈ tokens := by
  simp only [isReported, List.any_map, List.any_eq_true, Function.comp_apply]
  constructor
  · rintro ⟨token, htoken, hquotes⟩
    rwa [(quotes_message_iff (htokens token htoken)).mp hquotes]
  · intro hother
    exact ⟨other, hother, (quotes_message_iff (htokens other hother)).mpr rfl⟩

/-- The findings about a formula are those of its distinct candidates that name nothing. -/
theorem reviewNames_eq (reserved : List String) (solution : Solution)
    (calculation : Calculation) :
    reviewNames reserved solution calculation =
      (((candidates calculation.formula reserved).filter fun token ↦
        !isResolved solution token).eraseDups.map fun token ↦
          ⟨calculation.id, .unresolvedReference token⟩) := by
  have hplain : ∀ token ∈ candidates calculation.formula reserved, apostrophe ∉ token.toList :=
    fun _ ↦ apostrophe_not_mem
  rw [reviewNames]
  generalize candidates calculation.formula reserved = tokens at hplain ⊢
  induction tokens using List.reverseRecOn with
  | nil => rfl
  | append_singleton tokens token ih =>
    have hearlier : ∀ earlier ∈ (tokens.filter fun token ↦ !isResolved solution token).eraseDups,
        apostrophe ∉ earlier.toList := fun earlier hearlier ↦ hplain earlier
      (List.mem_append_left _ (List.mem_of_mem_filter (List.mem_eraseDups.mp hearlier)))
    rw [List.foldl_concat, ih fun earlier hmember ↦ hplain earlier (List.mem_append_left _ hmember),
      List.filter_append, List.filter_singleton]
    cases hresolved : isResolved solution token with
    | true => simp
    | false =>
      simp only [Bool.false_or, isReported_iff hearlier, Bool.not_false, cond_true,
        eraseDups_append_singleton, List.mem_eraseDups]
      split <;> simp

/-- A review of the names in a formula has one finding for each distinct candidate that names no
record at an exact tier, in the order in which they come first in the formula, all about the
calculation, and no others. -/
theorem reviewNames_reports_once (reserved : List String) (solution : Solution)
    (calculation : Calculation) :
    ∃ tokens : List String,
      reviewNames reserved solution calculation =
        (tokens.map fun token ↦ ⟨calculation.id, .unresolvedReference token⟩) ∧
      tokens.Nodup ∧
      (∀ token, token ∈ tokens ↔
        token ∈ candidates calculation.formula reserved ∧ ¬solution.Names token) ∧
      tokens.Pairwise fun earlier later ↦
        (candidates calculation.formula reserved).idxOf earlier <
          (candidates calculation.formula reserved).idxOf later := by
  refine ⟨_, reviewNames_eq reserved solution calculation, nodup_eraseDups _, fun token ↦ ?_, ?_⟩
  · rw [List.mem_eraseDups, List.mem_filter, Bool.not_eq_true', ← isResolved_iff,
      Bool.not_eq_true]
  · rw [eraseDups_filter]
    exact (eraseDups_in_order _).filter _

end Formulary
