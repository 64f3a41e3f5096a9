/-!
# Powers of two and ten

The two bases in which numbers are scaled here. `twoTo` is a shift, so that large powers cost
nothing to evaluate; `twoTo_eq` and `tenTo_eq` say that both are the powers they are named for.
-/

set_option autoImplicit false
set_option relaxedAutoImplicit false

namespace Formulary.Number

/-- A power of two. -/
def twoTo (exponent : Nat) : Nat :=
  1 <<< exponent

/-- A power of ten. -/
def tenTo (exponent : Nat) : Nat :=
  Nat.pow 10 exponent

theorem twoTo_eq (exponent : Nat) : twoTo exponent = Nat.pow 2 exponent := by
  rw [twoTo, Nat.shiftLeft_eq, Nat.one_mul]
  rfl

theorem twoTo_pos (exponent : Nat) : 0 < twoTo exponent := by
  rw [twoTo_eq]
  exact Nat.two_pow_pos exponent

theorem tenTo_eq (exponent : Nat) : tenTo exponent = Nat.pow 10 exponent := rfl

theorem tenTo_pos (exponent : Nat) : 0 < tenTo exponent :=
  Nat.pow_pos (by decide)

end Formulary.Number
