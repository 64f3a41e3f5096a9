import Formulary.Proofs.Recalculation.ResultsAt
import Formulary.Recalculation
import Mathlib.Data.List.Induction

/-!
# The run of a recalculation

A recalculation goes through positions one after the other. A step finds the number of one
calculation with the ledger at hand, `lookup_step`, and adds it to the ledger, `ledger_step`. Hence
what a run has found at a position is not changed by later positions,
`foundBy_append`, and its ledger holds exactly what it has found, `ledger_runCalculations`.
-/

set_option autoImplicit false
set_option relaxedAutoImplicit false

namespace Formulary

open Formulary.Number

variable {settings : Settings} {calculations : List Calculation} {ledger : Ledger}

/-! ### One step -/

/-- The number of the calculation at a position with the values of a ledger, if it has one. -/
def foundIn (settings : Settings) (calculations : List Calculation) (ledger : Ledger)
    (position : Nat) : Option Float :=
  calculations[position]?.bind fun calculation ↦
    (evaluateIn settings ledger calculation.formula).toOption

/-- A number that is found is finite. -/
theorem isFinite_of_foundIn {position : Nat} {value : Float}
    (hfound : foundIn settings calculations ledger position = some value) :
    value.isFinite = true := by
  obtain ⟨calculation, _, hvalue⟩ := Option.bind_eq_some_iff.mp hfound
  unfold evaluateIn at hvalue
  split at hvalue
  · cases hvalue
  · split at hvalue
    · cases hvalue
    · split at hvalue
      · rename_i hfinite
        obtain rfl := Option.some.inj hvalue
        exact isFinite_roundTo hfinite
      · cases hvalue

/-- A step finds the number at its position with the ledger at hand. -/
theorem lookup_step (progress : Progress) (position other : Nat) :
    (progress.step settings calculations position).values.lookup other =
      if other = position then
        (foundIn settings calculations progress.ledger position).or (progress.values.lookup other)
      else progress.values.lookup other := by
  cases hcalculation : calculations[position]? with
  | none => simp [Progress.step, foundIn, hcalculation]
  | some calculation =>
    simp only [Progress.step, foundIn, hcalculation, Option.bind_some]
    cases evaluateIn settings progress.ledger calculation.formula with
    | error error => simp [Except.toOption]
    | ok value =>
      by_cases hposition : other = position
      · simp [hposition, Except.toOption]
      · have hbeq : (other == position) = false := beq_eq_false_iff_ne.mpr hposition
        simp [List.lookup_cons, hbeq, hposition]

/-- A step adds what it finds to the ledger. -/
theorem ledger_step (progress : Progress) (position : Nat) :
    (progress.step settings calculations position).ledger =
      progress.ledger.withResults
        (resultsAt calculations (foundIn settings calculations progress.ledger) [position]) := by
  cases hcalculation : calculations[position]? with
  | none =>
    simp only [Progress.step, resultsAt, List.filterMap_cons, resultAt, hcalculation]
    rfl
  | some calculation =>
    simp only [Progress.step, resultsAt, List.filterMap_cons, resultAt, foundIn, hcalculation,
      Option.bind_some]
    cases evaluateIn settings progress.ledger calculation.formula with
    | error error => rfl
    | ok value => rfl

/-! ### Whole runs -/

/-- The number that a run over some positions finds at a position. -/
def foundBy (settings : Settings) (calculations : List Calculation) (ledger : Ledger)
    (positions : List Nat) (position : Nat) : Option Float :=
  (runCalculations settings calculations ledger positions).values.lookup position

variable {front back positions : List Nat} {position : Nat}

theorem runCalculations_append_singleton (settings : Settings) (calculations : List Calculation)
    (ledger : Ledger) (front : List Nat) (position : Nat) :
    runCalculations settings calculations ledger (front ++ [position]) =
      (runCalculations settings calculations ledger front).step settings calculations position := by
  rw [runCalculations, List.foldl_append]
  rfl

/-- What is found at a position is not changed by what comes behind it. -/
theorem foundBy_append (hback : position ∉ back) :
    foundBy settings calculations ledger (front ++ back) position =
      foundBy settings calculations ledger front position := by
  induction back using List.reverseRecOn with
  | nil => rw [List.append_nil]
  | append_singleton back last ih =>
    rw [List.mem_append, not_or, List.mem_singleton] at hback
    rw [← List.append_assoc, foundBy, runCalculations_append_singleton, lookup_step,
      if_neg hback.2]
    exact ih hback.1

/-- What is found at some positions is not changed by what comes behind them. -/
theorem resultsAt_foundBy_append (hnodup : (front ++ back).Nodup) :
    resultsAt calculations (foundBy settings calculations ledger (front ++ back)) front =
      resultsAt calculations (foundBy settings calculations ledger front) front := by
  refine resultsAt_congr fun position hposition ↦ foundBy_append fun hback ↦ ?_
  exact (List.nodup_append.mp hnodup).2.2 position hposition position hback rfl

/-- A run finds nothing at a position that it does not come to. -/
theorem foundBy_of_not_mem (hposition : position ∉ positions) :
    foundBy settings calculations ledger positions position = none := by
  rw [← List.nil_append positions, foundBy_append hposition]
  rfl

/-- The number at a position is found with the ledger of the run up to it. -/
theorem foundBy_append_cons (hnodup : (front ++ position :: back).Nodup) :
    foundBy settings calculations ledger (front ++ position :: back) position =
      foundIn settings calculations (runCalculations settings calculations ledger front).ledger
        position := by
  obtain ⟨_, hbehind, hapart⟩ := List.nodup_append.mp hnodup
  have hfront : position ∉ front := fun hmember ↦
    hapart position hmember position List.mem_cons_self rfl
  have hback : position ∉ back := (List.nodup_cons.mp hbehind).1
  rw [List.append_cons, foundBy_append hback, foundBy, runCalculations_append_singleton,
    lookup_step, if_pos rfl]
  show Option.or _ (foundBy settings calculations ledger front position) = _
  rw [foundBy_of_not_mem hfront, Option.or_none]

/-- All numbers of a run are finite. -/
theorem isFinite_of_foundBy {value : Float}
    (hfound : foundBy settings calculations ledger positions position = some value) :
    value.isFinite = true := by
  induction positions using List.reverseRecOn with
  | nil => cases hfound
  | append_singleton front last ih =>
    rw [foundBy, runCalculations_append_singleton, lookup_step] at hfound
    split at hfound
    · rcases Option.or_eq_some_iff.mp hfound with hhere | ⟨_, hbefore⟩
      · exact isFinite_of_foundIn hhere
      · exact ih hbefore
    · exact ih hfound

/-- The ledger of a run holds what the run has found. -/
theorem ledger_runCalculations (hnodup : positions.Nodup) :
    (runCalculations settings calculations ledger positions).ledger =
      ledger.withResults (resultsAt calculations
        (foundBy settings calculations ledger positions) positions) := by
  induction positions using List.reverseRecOn with
  | nil => rfl
  | append_singleton front last ih =>
    obtain ⟨hfront, _, _⟩ := List.nodup_append.mp hnodup
    have hhere : resultsAt calculations
          (foundBy settings calculations ledger (front ++ [last])) [last] =
        resultsAt calculations (foundIn settings calculations
          (runCalculations settings calculations ledger front).ledger) [last] := by
      refine resultsAt_congr fun position hposition ↦ ?_
      obtain rfl := List.mem_singleton.mp hposition
      exact foundBy_append_cons hnodup
    rw [runCalculations_append_singleton, ledger_step, resultsAt_append,
      resultsAt_foundBy_append hnodup, hhere, Ledger.withResults_append, ih hfront]

end Formulary
