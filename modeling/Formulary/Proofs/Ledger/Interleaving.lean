import Formulary.Proofs.Ledger.Run
import Mathlib.Data.List.Induction
import Mathlib.Data.List.TakeWhile

/-!
# Parameters and results in any order

The value that a ledger holds for a word after some postings is decided by the postings in front of
the first one that fixes the word, `early`: the value is what they leave, and if they leave none, it
is the fixed one, `get?_ofPostings`. Parameters and results may be posted in turn, each in their own
order, `Interleaves`. By the main statement, `get?_of_interleaves`, the ledger then answers as if
all parameters had been posted first, except for a word that is `Overtaken`: a result that comes
before every parameter with a value for the word keeps its place.
-/

set_option autoImplicit false
set_option relaxedAutoImplicit false

namespace Formulary.Ledger

open Formulary.Name Formulary.Number

variable {ledger : Ledger} {key : String} {postings : List Posting}

/-! ### The postings that decide a value -/

/-- The postings in front of the first one that fixes a word. -/
def early (key : String) (postings : List Posting) : List Posting :=
  postings.takeWhile fun posting ↦ (posting.fixes? key).isNone

theorem early_of_findSome?_eq_none (hfree : postings.findSome? (Posting.fixes? key) = none) :
    early key postings = postings := by
  refine List.takeWhile_eq_self_iff.mpr fun posting hposting ↦ ?_
  rw [List.findSome?_eq_none_iff.mp hfree posting hposting, Option.isNone_none]

/-- A posting that fixes a word does not revise it. -/
theorem Posting.revise_of_fixes?_eq_some {posting : Posting} {value : Float}
    (hfixes : posting.fixes? key = some value) (current : Option Float) :
    Posting.revise key current posting = current := by
  cases posting with
  | word => rfl
  | parameter => rfl
  | result => cases hfixes
  | removal => cases hfixes

/-- A word that no parameter answers to gets the value that the postings leave that come before the
first one to fix it; if they leave none, it gets the fixed value. -/
theorem get?_foldl_post (hledger : ledger.WellFormed) (hfree : ledger.isParameterKey key = false)
    (postings : List Posting) :
    (postings.foldl post ledger).get? key =
      ((early key postings).foldl (Posting.revise key) (ledger.get? key)).or
        (postings.findSome? (Posting.fixes? key)) := by
  induction postings generalizing ledger with
  | nil => exact (Option.or_none).symm
  | cons posting later ih =>
    have hpost := get?_post hledger posting hfree
    -- The posting that fixes the word ends the early ones, and no later one changes the value.
    cases hfixes : posting.fixes? key with
    | some value =>
      have hparameter : (ledger.post posting).isParameterKey key = true :=
        (isParameterKey_post hledger posting key).mpr (Or.inr (by rw [hfixes]; rfl))
      rw [Posting.revise_of_fixes?_eq_some hfixes, hfixes] at hpost
      have hearly : early key (posting :: later) = [] :=
        List.takeWhile_cons_of_neg (by rw [hfixes]; exact Bool.false_ne_true)
      rw [List.foldl_cons,
        (foldl_post_of_isParameterKey (hledger.post posting) hparameter later).2, hpost, hearly,
        List.findSome?_cons_of_isSome (by rw [hfixes]; rfl), hfixes]
      rfl
    | none =>
      have hstill : (ledger.post posting).isParameterKey key = false := by
        refine Bool.eq_false_iff.mpr fun hparameter ↦ ?_
        rcases (isParameterKey_post hledger posting key).mp hparameter with hold | hnew
        · exact Bool.false_ne_true (hfree.symm.trans hold)
        · rw [hfixes] at hnew
          cases hnew
      have hearly : early key (posting :: later) = posting :: early key later :=
        List.takeWhile_cons_of_pos (by rw [hfixes]; rfl)
      rw [hfixes, Option.or_none] at hpost
      rw [List.foldl_cons, ih (hledger.post posting) hstill, hpost, hearly, List.foldl_cons,
        List.findSome?_cons_of_isNone (by rw [hfixes]; rfl)]

/-- The value of a word after some postings. -/
theorem get?_ofPostings (postings : List Posting) (key : String) :
    (ofPostings postings).get? key =
      ((early key postings).foldl (Posting.revise key) none).or
        (postings.findSome? (Posting.fixes? key)) :=
  get?_foldl_post wellFormed_empty rfl postings

/-! ### Results in front of a parameter -/

/-- A posting is a finite result of a calculation that answers to a word. -/
def Posting.IsResult (key : String) : Posting → Prop
  | .word _ _ => False
  | .parameter _ _ => False
  | .result name value => Answers name key ∧ value.isFinite = true
  | .removal _ => False

instance (key : String) : DecidablePred (Posting.IsResult key)
  | .word _ _ => inferInstanceAs (Decidable False)
  | .parameter _ _ => inferInstanceAs (Decidable False)
  | .result _ _ => inferInstanceAs (Decidable (_ ∧ _))
  | .removal _ => inferInstanceAs (Decidable False)

/-- A result for a word comes before every posting that fixes the word, and there is such a one. -/
def Overtaken (key : String) (postings : List Posting) : Prop :=
  (∃ posting ∈ postings, (posting.fixes? key).isSome = true) ∧
    ∃ posting ∈ early key postings, posting.IsResult key

instance (key : String) (postings : List Posting) : Decidable (Overtaken key postings) :=
  inferInstanceAs (Decidable (_ ∧ _))

/-- A posting that is no result gives no value to a word without one. -/
theorem Posting.revise_none {posting : Posting} (hother : ¬posting.IsResult key) :
    Posting.revise key none posting = none := by
  cases posting with
  | word => rfl
  | parameter => rfl
  | result => exact if_neg hother
  | removal => exact ite_self none

/-- A posting that is neither a result nor a removal leaves a value as it is. -/
theorem Posting.revise_of_not_isResult {posting : Posting} (hother : ¬posting.IsResult key)
    (hkept : ∀ name, posting ≠ .removal name) (current : Option Float) :
    Posting.revise key current posting = current := by
  cases posting with
  | word => rfl
  | parameter => rfl
  | result => exact if_neg hother
  | removal name => exact absurd rfl (hkept name)

/-- Without results for it, a word gets no value by revisions. -/
theorem foldl_revise_eq_none (hnone : ∀ posting ∈ postings, ¬posting.IsResult key) :
    postings.foldl (Posting.revise key) none = none := by
  refine List.foldlRecOn (motive := (· = none)) postings _ rfl fun current hcurrent posting
    hposting ↦ ?_
  rw [hcurrent]
  exact Posting.revise_none (hnone posting hposting)

/-- Where no result is taken away, the last result for a word leaves it its value. -/
theorem exists_foldl_revise (hkept : ∀ name, .removal name ∉ postings)
    (hresult : ∃ posting ∈ postings, posting.IsResult key) :
    ∃ front name value back, postings = front ++ .result name value :: back ∧ Answers name key ∧
      (∀ posting ∈ back, ¬posting.IsResult key) ∧
      postings.foldl (Posting.revise key) none = some value := by
  induction postings using List.reverseRecOn with
  | nil =>
    obtain ⟨_, hmember, _⟩ := hresult
    cases hmember
  | append_singleton earlier last ih =>
    rw [List.foldl_append, List.foldl_cons, List.foldl_nil]
    have hlastKept (name : String) : last ≠ .removal name := fun hlast ↦
      hkept name (hlast ▸ List.mem_append_right _ List.mem_cons_self)
    by_cases hlast : last.IsResult key
    · cases last with
      | word => cases hlast
      | parameter => cases hlast
      | result name value =>
        exact ⟨earlier, name, value, [], rfl, hlast.1, fun _ hback ↦ absurd hback List.not_mem_nil,
          if_pos hlast⟩
      | removal => cases hlast
    · have hearlier : ∃ posting ∈ earlier, posting.IsResult key := by
        obtain ⟨posting, hmember, hposting⟩ := hresult
        refine ⟨posting, (List.mem_append.mp hmember).resolve_right fun hmember ↦ ?_, hposting⟩
        exact hlast (List.mem_singleton.mp hmember ▸ hposting)
      obtain ⟨front, name, value, back, rfl, hanswers, hback, hvalue⟩ :=
        ih (fun name hname ↦ hkept name (List.mem_append_left _ hname)) hearlier
      refine ⟨front, name, value, back ++ [last], by simp, hanswers, ?_, ?_⟩
      · intro posting hposting
        rcases List.mem_append.mp hposting with hold | hnew
        · exact hback posting hold
        · exact List.mem_singleton.mp hnew ▸ hlast
      · rw [hvalue, Posting.revise_of_not_isResult hlast hlastKept]

/-! ### Parameters and results in turn -/

/-- Parameters and results, posted in turn and each in their own order. -/
inductive Interleaves :
    List (Overrides × Parameter) → List (String × Float) → List Posting → Prop
  | nil : Interleaves [] [] []
  | parameter {parameters : List (Overrides × Parameter)} {results : List (String × Float)}
      {postings : List Posting} (overrides : Overrides) (source : Parameter) :
      Interleaves parameters results postings →
      Interleaves ((overrides, source) :: parameters) results
        (.parameter overrides source :: postings)
  | result {parameters : List (Overrides × Parameter)} {results : List (String × Float)}
      {postings : List Posting} (name : String) (value : Float) :
      Interleaves parameters results postings →
      Interleaves parameters ((name, value) :: results) (.result name value :: postings)

/-- Parameters and then results. -/
def parametersFirst (parameters : List (Overrides × Parameter)) (results : List (String × Float)) :
    List Posting :=
  parameters.map (fun source ↦ .parameter source.1 source.2) ++
    results.map fun result ↦ .result result.1 result.2

variable {parameters : List (Overrides × Parameter)} {results : List (String × Float)}

theorem interleaves_parametersFirst (parameters : List (Overrides × Parameter))
    (results : List (String × Float)) :
    Interleaves parameters results (parametersFirst parameters results) := by
  induction parameters with
  | nil =>
    induction results with
    | nil => exact .nil
    | cons result results ih => exact .result result.1 result.2 ih
  | cons source parameters ih => exact .parameter source.1 source.2 ih

theorem Interleaves.removal_not_mem (hinterleaves : Interleaves parameters results postings)
    (name : String) : .removal name ∉ postings := by
  induction hinterleaves with
  | nil => exact List.not_mem_nil
  | parameter _ _ _ ih => simpa using ih
  | result _ _ _ ih => simpa using ih

/-- In turn with results, parameters fix what they fix alone. -/
theorem Interleaves.findSome?_fixes? (hinterleaves : Interleaves parameters results postings)
    (key : String) : postings.findSome? (Posting.fixes? key) =
      parameters.findSome? fun source ↦ (Posting.parameter source.1 source.2).fixes? key := by
  induction hinterleaves with
  | nil => rfl
  | parameter overrides source _ ih => rw [List.findSome?_cons, List.findSome?_cons, ih]
  | result name value _ ih => exact ih

/-- In turn with parameters, results leave what they leave alone. -/
theorem Interleaves.foldl_revise (hinterleaves : Interleaves parameters results postings)
    (key : String) (current : Option Float) : postings.foldl (Posting.revise key) current =
      results.foldl (fun current result ↦ Posting.revise key current (.result result.1 result.2))
        current := by
  induction hinterleaves generalizing current with
  | nil => rfl
  | parameter _ _ _ ih => exact ih current
  | result name value _ ih => exact ih _

/-- No word is overtaken where the parameters come first. -/
theorem not_overtaken_parametersFirst (key : String) (parameters : List (Overrides × Parameter))
    (results : List (String × Float)) :
    ¬Overtaken key (parametersFirst parameters results) := by
  induction parameters with
  | nil =>
    rintro ⟨⟨posting, hposting, hfixes⟩, -⟩
    obtain ⟨result, _, rfl⟩ := List.mem_map.mp hposting
    cases hfixes
  | cons source parameters ih =>
    rintro ⟨⟨fixing, hfixing, hfixes⟩, posting, hposting, hresult⟩
    have hsplit : parametersFirst (source :: parameters) results =
        .parameter source.1 source.2 :: parametersFirst parameters results := rfl
    rw [hsplit] at hfixing hposting
    rw [early] at hposting
    cases hsource : (Posting.parameter source.1 source.2).fixes? key with
    | some value =>
      rw [List.takeWhile_cons_of_neg (by rw [hsource]; exact Bool.false_ne_true)] at hposting
      cases hposting
    | none =>
      rw [List.takeWhile_cons_of_pos (by rw [hsource]; rfl)] at hposting
      rcases List.mem_cons.mp hfixing with rfl | hfixing
      · rw [hsource] at hfixes
        cases hfixes
      · rcases List.mem_cons.mp hposting with rfl | hposting
        · cases hresult
        · exact ih ⟨⟨fixing, hfixing, hfixes⟩, posting, hposting, hresult⟩

/-- What interleaved parameters and results leave a word that is not overtaken. -/
theorem Interleaves.get?_of_not_overtaken (hinterleaves : Interleaves parameters results postings)
    (hfair : ¬Overtaken key postings) :
    (ofPostings postings).get? key =
      (parameters.findSome? fun source ↦ (Posting.parameter source.1 source.2).fixes? key).or
        (results.foldl (fun current result ↦
          Posting.revise key current (.result result.1 result.2)) none) := by
  rw [get?_ofPostings, ← hinterleaves.findSome?_fixes? key, ← hinterleaves.foldl_revise key]
  cases hfixed : postings.findSome? (Posting.fixes? key) with
  | none => rw [early_of_findSome?_eq_none hfixed, Option.or_none, Option.none_or]
  | some value =>
    obtain ⟨fixing, hfixing, hfixes⟩ := List.exists_of_findSome?_eq_some hfixed
    have hnone : ∀ posting ∈ early key postings, ¬posting.IsResult key :=
      fun posting hposting hresult ↦
        hfair ⟨⟨fixing, hfixing, by rw [hfixes]; rfl⟩, posting, hposting, hresult⟩
    rw [foldl_revise_eq_none hnone, Option.none_or, Option.some_or]

/-- A ledger to which parameters and results were posted in turn answers as if all parameters had
been posted first, except for a word that is overtaken: that word has the value of the last result
for it that came before the first parameter with a value for it. -/
theorem get?_of_interleaves (hinterleaves : Interleaves parameters results postings)
    (key : String) :
    (¬Overtaken key postings →
      (ofPostings postings).get? key = (ofPostings (parametersFirst parameters results)).get? key) ∧
    (Overtaken key postings →
      ∃ front name value back, early key postings = front ++ .result name value :: back ∧
        Answers name key ∧ (∀ posting ∈ back, ¬posting.IsResult key) ∧
          (ofPostings postings).get? key = some value) := by
  refine ⟨fun hfair ↦ ?_, fun hovertaken ↦ ?_⟩
  · rw [hinterleaves.get?_of_not_overtaken hfair,
      (interleaves_parametersFirst parameters results).get?_of_not_overtaken
        (not_overtaken_parametersFirst key parameters results)]
  · have hkept (name : String) : .removal name ∉ early key postings := fun hmember ↦
      hinterleaves.removal_not_mem name ((List.takeWhile_prefix _).subset hmember)
    obtain ⟨front, name, value, back, hsplit, hanswers, hback, hvalue⟩ :=
      exists_foldl_revise hkept hovertaken.2
    exact ⟨front, name, value, back, hsplit, hanswers, hback, by
      rw [get?_ofPostings, hvalue, Option.some_or]⟩

/-- A rate with the value one. -/
def rate : Parameter :=
  { id := "1", name := "Rate", testValue := some (.number 1) }

/-- A rate posted between two results has its value, as it has if it is posted first. -/
theorem get?_rate_between_results :
    Interleaves [([], rate)] [("Total", 3), ("Rate", 9)]
        [.result "Total" 3, .parameter [] rate, .result "Rate" 9] ∧
      (ofPostings [.result "Total" 3, .parameter [] rate, .result "Rate" 9]).get? "Rate" =
        (ofPostings (parametersFirst [([], rate)] [("Total", 3), ("Rate", 9)])).get? "Rate" ∧
      (ofPostings (parametersFirst [([], rate)] [("Total", 3), ("Rate", 9)])).get? "Rate" =
        some 1 := by
  have hinterleaves : Interleaves [([], rate)] [("Total", 3), ("Rate", 9)]
      [.result "Total" 3, .parameter [] rate, .result "Rate" 9] :=
    .result _ _ (.parameter _ _ (.result _ _ .nil))
  exact ⟨hinterleaves, (get?_of_interleaves hinterleaves "Rate").1 (by decide +kernel),
    by decide +kernel⟩

/-- A result posted before a rate of the same name stays, where the rate posted first wins. -/
theorem get?_rate_after_result :
    Interleaves [([], rate)] [("Rate", 9)] [.result "Rate" 9, .parameter [] rate] ∧
      (ofPostings [.result "Rate" 9, .parameter [] rate]).get? "Rate" = some 9 ∧
      (ofPostings (parametersFirst [([], rate)] [("Rate", 9)])).get? "Rate" = some 1 :=
  ⟨.result _ _ (.parameter _ _ .nil), by decide +kernel, by decide +kernel⟩

end Formulary.Ledger
