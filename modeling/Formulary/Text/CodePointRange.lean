/-!
# Ranges of code points

A character class is given by an ascending list of closed ranges of code points, and `inRanges`
decides membership. The main statement, `exists_range_of_inRanges`, says that a member lies in one
of the ranges listed.
-/

set_option autoImplicit false
set_option relaxedAutoImplicit false

namespace Formulary.Text

/-- Whether a code point lies in one of the ranges of an ascending list; the search ends at the
first range that starts behind it. -/
def inRanges : List (Nat × Nat) → Nat → Bool
  | [], _ => false
  | (first, last) :: later, code =>
    if code < first then false else code ≤ last || inRanges later code

/-- A member of a class lies in one of its ranges. -/
theorem exists_range_of_inRanges {ranges : List (Nat × Nat)} {code : Nat}
    (hmember : inRanges ranges code = true) :
    ∃ range ∈ ranges, range.1 ≤ code ∧ code ≤ range.2 := by
  induction ranges with
  | nil => simp [inRanges] at hmember
  | cons range later ih =>
    obtain ⟨first, last⟩ := range
    rw [inRanges] at hmember
    split at hmember
    · simp at hmember
    · rename_i hbegins
      rcases (Bool.or_eq_true _ _).mp hmember with hends | hlater
      · exact ⟨(first, last), by simp, by simpa using hbegins, by simpa using hends⟩
      · obtain ⟨range, hrange, hbounds⟩ := ih hlater
        exact ⟨range, by simp [hrange], hbounds⟩

end Formulary.Text
