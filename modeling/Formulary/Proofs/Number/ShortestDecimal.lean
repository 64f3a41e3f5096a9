import Formulary.Proofs.Number.NearestDouble

/-!
# The shortest decimal of a magnitude

The search for the shortest decimal of a magnitude tries the decimals of one digit, of two and so
on, and stops at one that lies in the interval of the magnitude, `Magnitude.covers_shortestFrom`. It
tries seventeen digits last, and these suffice, `Magnitude.covers_of_seventeen`: a step of that grid
is shorter than the interval, `Magnitude.parts_lt`, so one of the two points around the centre lies
inside, `Magnitude.isSome_nearest?`. Hence a magnitude covers the decimal that is written for it,
`Magnitude.covers_shortest`.
-/

set_option autoImplicit false
set_option relaxedAutoImplicit false

namespace Formulary.Number

/-! ### Grids -/

variable {magnitude : Magnitude} {grid : Grid} {interval : Neighbourhood}

/-- A point lies inside an interval if its count of quarters does. -/
theorem Grid.inside_iff (hpositive : 0 < grid.times) (point : Nat) :
    grid.inside interval point = true ↔
      interval.Contains (point * (grid.parts / grid.times : ℚ)) := by
  have htimes : (0 : ℚ) < grid.times := by exact_mod_cast hpositive
  rw [inside, Neighbourhood.Contains, mul_div_assoc']
  split
  · rw [Bool.and_eq_true, decide_eq_true_iff, decide_eq_true_iff, le_div_iff₀ htimes,
      div_le_iff₀ htimes]
    norm_cast
  · rw [Bool.and_eq_true, decide_eq_true_iff, decide_eq_true_iff, lt_div_iff₀ htimes,
      div_lt_iff₀ htimes]
    norm_cast

theorem Grid.times_pos (exponent step : ℤ) : 0 < (Grid.ofStep exponent step).times :=
  Nat.mul_pos (twoTo_pos _) (tenTo_pos _)

/-- A step of the grid of decimals, in quarters. -/
theorem Grid.parts_div_times (exponent step : ℤ) :
    ((Grid.ofStep exponent step).parts / (Grid.ofStep exponent step).times : ℚ) =
      4 * (10 ^ step / 2 ^ exponent) := by
  have hfour : (2 : ℚ) ^ exponent = 4 * 2 ^ (exponent - 2) := by
    rw [zpow_sub₀ two_ne_zero]
    norm_num
    ring
  have hneg : -(exponent - 2) = 2 - exponent := by ring
  rw [hfour, zpow_eq_div two_ne_zero, zpow_eq_div (by norm_num : (10 : ℚ) ≠ 0), ofStep, hneg]
  simp only [twoTo_eq, tenTo_eq, Nat.pow_eq]
  push_cast
  field_simp

/-- The points of the grid of decimals inside the interval of a magnitude are covered by it. -/
theorem Magnitude.covers_iff_inside (magnitude : Magnitude) (step : ℤ) (point : Nat) :
    magnitude.Covers (point * 10 ^ step) ↔
      (Grid.ofStep magnitude.exponent step).inside magnitude.neighbourhood point = true := by
  rw [Grid.inside_iff (Grid.times_pos _ _), Grid.parts_div_times, Covers, mul_left_comm,
    mul_div_assoc]

theorem Grid.inside_of_nearest? {point : Nat} (hnearest : grid.nearest? interval = some point) :
    grid.inside interval point = true := by
  simp only [nearest?] at hnearest
  split at hnearest
  · split at hnearest
    all_goals
      obtain rfl := Option.some.inj hnearest
      assumption
  · obtain rfl := Option.some.inj hnearest
    assumption
  · obtain rfl := Option.some.inj hnearest
    assumption
  · cases hnearest

/-- There is a nearest point if one of the two around the centre lies inside. -/
theorem Grid.isSome_nearest? (grid : Grid) (interval : Neighbourhood) :
    (grid.nearest? interval).isSome =
      (grid.inside interval (interval.centre * grid.times / grid.parts) ||
        grid.inside interval (interval.centre * grid.times / grid.parts + 1)) := by
  simp only [nearest?]
  cases grid.inside interval (interval.centre * grid.times / grid.parts) <;>
    cases grid.inside interval (interval.centre * grid.times / grid.parts + 1)
  case true.true =>
    dsimp only
    split <;> rfl
  all_goals rfl

theorem Grid.inside_of_lt {point : Nat} (hlow : interval.low * grid.times < point * grid.parts)
    (hhigh : point * grid.parts < interval.high * grid.times) :
    grid.inside interval point = true := by
  rw [inside]
  split
  · rw [Bool.and_eq_true, decide_eq_true_iff, decide_eq_true_iff]
    exact ⟨hlow.le, hhigh.le⟩
  · rw [Bool.and_eq_true, decide_eq_true_iff, decide_eq_true_iff]
    exact ⟨hlow, hhigh⟩

/-- A step of a grid is shorter than the interval of a magnitude that is at least `10 ^ 16` steps
away from zero. -/
theorem Magnitude.parts_lt (hcanonical : magnitude.IsCanonical) (hpositive : 0 < grid.times)
    (hfine : 10 ^ 16 * grid.parts ≤ 4 * magnitude.significand * grid.times) :
    magnitude.neighbourhood.low * grid.times + grid.parts <
      magnitude.neighbourhood.high * grid.times := by
  have hbound := Nat.mul_lt_mul_of_pos_right hcanonical.bounded hpositive
  have hfirst := Nat.mul_le_mul_right grid.times hcanonical.positive
  simp only [neighbourhood]
  split
  · rename_i hpower
    rw [hpower.1] at hfine ⊢
    have hsmall : 4 * twoTo 52 * grid.times < 3 * 10 ^ 16 * grid.times :=
      Nat.mul_lt_mul_of_pos_right (by decide) hpositive
    rw [Nat.sub_mul, Nat.add_mul]
    omega
  · rw [Nat.sub_mul, Nat.add_mul]
    rw [mul_assoc] at hfine ⊢
    omega

/-- On a grid that is fine enough, one of the two points around the centre lies inside the interval
of a magnitude. -/
theorem Magnitude.isSome_nearest? (hcanonical : magnitude.IsCanonical) (hpositive : 0 < grid.times)
    (hparts : 0 < grid.parts)
    (hfine : 10 ^ 16 * grid.parts ≤ 4 * magnitude.significand * grid.times) :
    (grid.nearest? magnitude.neighbourhood).isSome = true := by
  have hstep := parts_lt hcanonical hpositive hfine
  have hlow := Nat.mul_lt_mul_of_pos_right (low_lt hcanonical.positive) hpositive
  have hhigh : 4 * magnitude.significand * grid.times <
      magnitude.neighbourhood.high * grid.times :=
    Nat.mul_lt_mul_of_pos_right (by rw [high_eq]; omega) hpositive
  have hbelow := Nat.div_mul_le_self (4 * magnitude.significand * grid.times) grid.parts
  have habove := Nat.lt_div_mul_add hparts (a := 4 * magnitude.significand * grid.times)
  have hcentre : magnitude.neighbourhood.centre = 4 * magnitude.significand := rfl
  rw [Grid.isSome_nearest?, hcentre, Bool.or_eq_true]
  generalize 4 * magnitude.significand * grid.times / grid.parts = below at hbelow habove ⊢
  by_cases hreach : magnitude.neighbourhood.low * grid.times < below * grid.parts
  · exact Or.inl (Grid.inside_of_lt hreach (hbelow.trans_lt hhigh))
  · refine Or.inr (Grid.inside_of_lt ?_ ?_) <;> rw [Nat.add_mul] <;> omega

/-! ### The search -/

/-- The zeros after the point are no more than there are before the first digit. -/
theorem le_leadingZeros {count dividend divisor : Nat} (hcount : divisor ≤ dividend * 10 ^ count) :
    divisor ≤ dividend * 10 ^ (leadingZeros count dividend divisor + 1) := by
  induction count generalizing dividend with
  | zero =>
    rw [leadingZeros]
    omega
  | succ count ih =>
    rw [leadingZeros]
    split
    · rw [pow_succ', ← mul_assoc] at hcount ⊢
      exact ih hcount
    · omega

theorem ten_pow_length_digits_le {number : Nat} (hpositive : 0 < number) :
    10 ^ ((digits number).length - 1) ≤ number := by
  rcases Nat.eq_zero_or_pos ((digits number).length - 1) with hzero | hmore
  · rw [hzero]
    exact hpositive
  · have hlength := Nat.length_toDigits_le_iff (b := 10) (n := number) (by decide) hmore
    exact not_lt.mp fun hless ↦ absurd (hlength.mpr hless) (by rw [digits] at hmore ⊢; omega)

/-- A magnitude is at least the power of ten of its digits. -/
theorem Magnitude.ten_zpow_le_value (hcanonical : magnitude.IsCanonical) :
    (10 : ℚ) ^ (magnitude.wholeDigits - 1) ≤ magnitude.value := by
  have hsplit : magnitude.value = (magnitude.significand * twoTo magnitude.exponent.toNat : Nat) /
      (twoTo (-magnitude.exponent).toNat : Nat) := by
    rw [value, zpow_eq_div two_ne_zero, mul_div_assoc', twoTo_eq, twoTo_eq, Nat.pow_eq, Nat.pow_eq]
    push_cast
    rfl
  have hdivisor := twoTo_pos (-magnitude.exponent).toNat
  have hdividend : 0 < magnitude.significand * twoTo magnitude.exponent.toNat :=
    Nat.mul_pos hcanonical.positive (twoTo_pos _)
  have hsmall : twoTo (-magnitude.exponent).toNat ≤
      magnitude.significand * twoTo magnitude.exponent.toNat * 10 ^ 400 := by
    have hleast : leastExponent ≤ magnitude.exponent := hcanonical.least
    have hpower (count : Nat) : 2 ^ (3 * count) ≤ 10 ^ count := by
      rw [pow_mul]
      exact Nat.pow_le_pow_left (by decide) count
    -- the power must not be computed
    generalize hcount : 400 = count
    rw [twoTo_eq]
    refine le_trans ?_ (Nat.le_mul_of_pos_left _ hdividend)
    refine le_trans (Nat.pow_le_pow_right two_pos ?_) (hpower count)
    rw [leastExponent] at hleast
    omega
  rw [hsplit, le_div_iff₀ (by exact_mod_cast hdivisor), wholeDigits]
  generalize magnitude.significand * twoTo magnitude.exponent.toNat = dividend
    at hdividend hsmall ⊢
  generalize twoTo (-magnitude.exponent).toNat = divisor at hdivisor hsmall ⊢
  show (10 : ℚ) ^ ((if divisor ≤ dividend then _ else _ : ℤ) - 1) * divisor ≤ dividend
  split
  · rename_i hwhole
    have hquotient := ten_pow_length_digits_le (Nat.div_pos hwhole hdivisor)
    have hlength : 0 < (digits (dividend / divisor)).length := Nat.length_toDigits_pos
    have hone : ((digits (dividend / divisor)).length - 1 : ℤ) =
        ((digits (dividend / divisor)).length - 1 : Nat) := by omega
    rw [hone, zpow_natCast]
    exact_mod_cast (Nat.mul_le_mul_right divisor hquotient).trans (Nat.div_mul_le_self _ _)
  · have hzeros := le_leadingZeros hsmall
    generalize leadingZeros 400 dividend divisor = count at hzeros ⊢
    have hneg : (-(count : ℤ) - 1) = -((count + 1 : Nat) : ℤ) := by
      push_cast
      ring
    rw [hneg, zpow_neg, zpow_natCast, inv_mul_le_iff₀ (by positivity), mul_comm]
    exact_mod_cast hzeros

/-- The search ends with a decimal that the magnitude covers, if there is one of the lengths that it
tries. -/
theorem Magnitude.covers_shortestFrom {wholeDigits : ℤ} {count length : Nat}
    (hfound : ∃ digits, length ≤ digits ∧ digits < length + count ∧
      ((Grid.ofStep magnitude.exponent (wholeDigits - digits)).nearest?
        magnitude.neighbourhood).isSome = true) :
    magnitude.Covers (shortestFrom magnitude wholeDigits count length).value := by
  induction count generalizing length with
  | zero =>
    obtain ⟨digits, hlow, hhigh, -⟩ := hfound
    omega
  | succ count ih =>
    rw [shortestFrom]
    split
    · rename_i point hnearest
      exact (covers_iff_inside magnitude _ point).mpr (Grid.inside_of_nearest? hnearest)
    · rename_i hnone
      obtain ⟨digits, hlow, hhigh, hsome⟩ := hfound
      refine ih ⟨digits, ?_, by omega, hsome⟩
      rcases Nat.lt_or_eq_of_le hlow with hless | rfl
      · exact hless
      · rw [hnone] at hsome
        cases hsome

/-- Seventeen digits suffice. -/
theorem Magnitude.covers_of_seventeen (hcanonical : magnitude.IsCanonical) :
    magnitude.Covers (shortestFrom magnitude magnitude.wholeDigits 17 1).value := by
  refine covers_shortestFrom ⟨17, by omega, by omega, ?_⟩
  refine isSome_nearest? hcanonical (Grid.times_pos _ _)
    (Nat.mul_pos (twoTo_pos _) (tenTo_pos _)) ?_
  have hvalue := ten_zpow_le_value hcanonical
  have hsplit := Grid.parts_div_times magnitude.exponent (magnitude.wholeDigits - 17)
  have htimes := Grid.times_pos magnitude.exponent (magnitude.wholeDigits - 17)
  generalize Grid.ofStep magnitude.exponent (magnitude.wholeDigits - (17 : Nat)) = grid
    at hsplit htimes ⊢
  have hpositive : (0 : ℚ) < grid.times := by exact_mod_cast htimes
  have hpower : (10 : ℚ) ^ 16 * 10 ^ (magnitude.wholeDigits - 17) =
      10 ^ (magnitude.wholeDigits - 1) := by
    rw [← zpow_natCast, ← zpow_add₀ (by norm_num)]
    congr 1
    push_cast
    ring
  rw [value, ← div_le_iff₀ (zpow_pos two_pos _), ← hpower] at hvalue
  rw [div_eq_iff hpositive.ne'] at hsplit
  have hfine : (10 ^ 16 * grid.parts : ℚ) ≤ 4 * magnitude.significand * grid.times :=
    calc (10 ^ 16 * grid.parts : ℚ) =
          4 * (10 ^ 16 * 10 ^ (magnitude.wholeDigits - 17) / 2 ^ magnitude.exponent) *
            grid.times := by
          rw [hsplit]
          ring
      _ ≤ 4 * magnitude.significand * grid.times :=
          mul_le_mul_of_nonneg_right (mul_le_mul_of_nonneg_left hvalue (by norm_num)) hpositive.le
  exact_mod_cast hfine

/-! ### Zeros at the end -/

theorem value_dropZeros (count : Nat) (decimal : Decimal) :
    (dropZeros count decimal).value = decimal.value := by
  induction count generalizing decimal with
  | zero => rfl
  | succ count ih =>
    rw [dropZeros]
    split
    · rename_i hzero
      have hten : (decimal.coefficient : ℚ) = 10 * (decimal.coefficient / 10 : Nat) := by
        exact_mod_cast (by omega : decimal.coefficient = 10 * (decimal.coefficient / 10))
      rw [ih, Decimal.value, Decimal.value, hten, zpow_add_one₀ (by norm_num)]
      ring
    · rfl

/-- Dropping zeros keeps the number. -/
theorem Decimal.value_reduced (decimal : Decimal) : decimal.reduced.value = decimal.value := by
  rw [reduced]
  split
  · rename_i hzero
    rw [value, value, hzero]
    simp
  · exact value_dropZeros _ decimal

/-- A magnitude covers its shortest decimal. -/
theorem Magnitude.covers_shortest (hcanonical : magnitude.IsCanonical) :
    magnitude.Covers magnitude.shortest.value := by
  rw [shortest, if_neg hcanonical.positive.ne', Decimal.value_reduced]
  exact covers_of_seventeen hcanonical

end Formulary.Number
