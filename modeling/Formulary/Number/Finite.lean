/-!
# Finite doubles

`finite?` lets a double pass only if it is finite, that is, neither infinite nor not a number.
-/

set_option autoImplicit false
set_option relaxedAutoImplicit false

namespace Formulary.Number

/-- A double, if it is finite. -/
def finite? (value : Float) : Option Float :=
  if value.isFinite then some value else none

theorem finite?_eq_some_iff {value result : Float} :
    finite? value = some result ↔ value = result ∧ result.isFinite = true := by
  rw [finite?]
  split
  · rename_i hfinite
    constructor
    · intro hsame
      obtain rfl := Option.some.inj hsame
      exact ⟨rfl, hfinite⟩
    · rintro ⟨rfl, _⟩
      rfl
  · rename_i hinfinite
    constructor
    · simp
    · rintro ⟨rfl, hfinite⟩
      exact absurd hfinite hinfinite

end Formulary.Number
