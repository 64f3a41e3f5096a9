import Formulary.Number.Binary
import Formulary.Number.Decimal

/-!
# The shortest decimal that reads back

Every double has an interval of reals that round to it. `shortest` finds the decimal with the fewest
digits in that interval: for one digit, then two, and so on, it looks at the two neighbours of the
double on the grid of decimals of that length, takes the nearer of those inside the interval, and
the upper one of two equally near. `shortestText` is the text of a double made from it, which never
has an exponent.
-/

set_option autoImplicit false
set_option relaxedAutoImplicit false

namespace Formulary.Number

/-! ### The interval of a magnitude -/

/-- The reals that round to a double: the double itself and the two ends of its interval, in
quarters of its last place, and whether the ends belong to it. -/
structure Neighbourhood where
  low : Nat
  centre : Nat
  high : Nat
  closed : Bool
  deriving Repr

/-- The interval of a magnitude. The lower half is narrower at a power of two, where the doubles
below lie twice as close. -/
def Magnitude.neighbourhood (magnitude : Magnitude) : Neighbourhood where
  low :=
    if magnitude.significand = twoTo 52 ∧ leastExponent < magnitude.exponent then
      4 * magnitude.significand - 1
    else 4 * magnitude.significand - 2
  centre := 4 * magnitude.significand
  high := 4 * magnitude.significand + 2
  closed := magnitude.significand % 2 == 0

/-! ### Grids of decimals -/

/-- A grid of equally spaced numbers: a count of quarters `x` stands at `x · times / parts`
steps. -/
structure Grid where
  times : Nat
  parts : Nat

/-- The grid of the multiples of `10 ^ step` for quarters of `2 ^ exponent`. -/
def Grid.ofStep (exponent step : Int) : Grid where
  times := twoTo (exponent - 2).toNat * tenTo (-step).toNat
  parts := twoTo (2 - exponent).toNat * tenTo step.toNat

/-- Whether a point of the grid lies in an interval. -/
def Grid.inside (grid : Grid) (interval : Neighbourhood) (point : Nat) : Bool :=
  if interval.closed then
    interval.low * grid.times ≤ point * grid.parts &&
      point * grid.parts ≤ interval.high * grid.times
  else
    interval.low * grid.times < point * grid.parts &&
      point * grid.parts < interval.high * grid.times

/-- The point of the grid inside the interval that is nearest to its centre, the upper one of two
equally near. -/
def Grid.nearest? (grid : Grid) (interval : Neighbourhood) : Option Nat :=
  let centre := interval.centre * grid.times
  let below := centre / grid.parts
  let above := below + 1
  match grid.inside interval below, grid.inside interval above with
  | true, true =>
    if centre - below * grid.parts < above * grid.parts - centre then some below else some above
  | true, false => some below
  | false, true => some above
  | false, false => none

/-! ### The search -/

/-- The number of zeros that follow the point in `dividend / divisor`, at most so many. -/
def leadingZeros : Nat → Nat → Nat → Nat
  | 0, _, _ => 0
  | count + 1, dividend, divisor =>
    if dividend * 10 < divisor then leadingZeros count (dividend * 10) divisor + 1 else 0

/-- The number of digits before the point of a positive magnitude; negative where zeros follow the
point. -/
def Magnitude.wholeDigits (magnitude : Magnitude) : Int :=
  let dividend := magnitude.significand * twoTo magnitude.exponent.toNat
  let divisor := twoTo (-magnitude.exponent).toNat
  if divisor ≤ dividend then (digits (dividend / divisor)).length
  else -(leadingZeros 400 dividend divisor : Int)

/-- The first decimal that reads back, of the lengths from `length` on; `count` more are tried. -/
def shortestFrom (magnitude : Magnitude) (wholeDigits : Int) : Nat → Nat → Decimal
  | 0, _ => ⟨0, 0⟩
  | count + 1, length =>
    let step := wholeDigits - length
    match (Grid.ofStep magnitude.exponent step).nearest? magnitude.neighbourhood with
    | some coefficient => ⟨coefficient, step⟩
    | none => shortestFrom magnitude wholeDigits count (length + 1)

/-- The shortest decimal that rounds to a magnitude, the nearest one of that length. Seventeen
digits always suffice. -/
def Magnitude.shortest (magnitude : Magnitude) : Decimal :=
  if magnitude.significand = 0 then ⟨0, 0⟩
  else (shortestFrom magnitude magnitude.wholeDigits 17 1).reduced

/-! ### The text of a double -/

/-- A text with a minus sign before it where one is due. -/
def signed (negative : Bool) (text : List Char) : List Char :=
  if negative then '-' :: text else text

/-- The characters of a double: the shortest digits that read back, never with an exponent. -/
def shortestCharacters (number : Float) : List Char :=
  match decode number with
  | .notANumber => ['N', 'a', 'N']
  | .infinite negative => signed negative ['i', 'n', 'f']
  | .finite negative magnitude => signed negative magnitude.shortest.positional

/-- The text of a double: the shortest digits that read back, never with an exponent. -/
def shortestText (number : Float) : String :=
  String.ofList (shortestCharacters number)

end Formulary.Number
