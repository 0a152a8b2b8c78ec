import Mathlib.Algebra.Order.Field.Basic
import Mathlib.Algebra.Order.Ring.Rat
import Mathlib.Data.Int.Cast.Field
import Mathlib.Data.Nat.Cast.Field
import Mathlib.Data.Rat.Lemmas
import Mathlib.Order.Compare
import Mathlib.Tactic.FieldSimp
import Mathlib.Tactic.Ring
import Stepwise.Fraction

/-!
# The value of a fraction

`Fraction.value` is the rational number that a fraction denotes. Every operation computes the value
of its result exactly, and fractions of equal value are equal, so that a statement about fractions
can be proved in the field of rationals.
-/

namespace Stepwise.Fraction

/-- The rational number that a fraction denotes. -/
def value (a : Fraction) : ℚ := a.num / a.den

theorem den_ne_zero (a : Fraction) : (a.den : ℚ) ≠ 0 := Nat.cast_ne_zero.2 a.den_pos.ne'

theorem value_injective : Function.Injective value := by
  intro a b equal
  have positive (c : Fraction) : (0 : ℤ) < c.den := Int.natCast_pos.2 c.den_pos
  have lowest (c : Fraction) : c.num.natAbs.Coprime (c.den : ℤ).natAbs := c.coprime
  -- Both are in lowest terms, where the parts are determined by the quotient.
  obtain ⟨nums, dens⟩ := Rat.div_int_inj (positive a) (positive b) (lowest a) (lowest b)
    (by simpa [value] using equal)
  cases a
  cases b
  simp only [Nat.cast_inj] at nums dens
  subst nums dens
  rfl

/-- The parts are those of the rational number. -/
theorem num_value (a : Fraction) : a.value.num = a.num := by
  have num := Rat.num_div_eq_of_coprime (Int.natCast_pos.2 a.den_pos) a.coprime
  rwa [Int.cast_natCast] at num

theorem den_value (a : Fraction) : a.value.den = a.den := by
  have den := Rat.den_div_eq_of_coprime (Int.natCast_pos.2 a.den_pos) a.coprime
  rw [Int.cast_natCast] at den
  exact Int.natCast_inj.1 den

/-! ## Making fractions -/

/-- Dividing both parts by their greatest common divisor keeps the quotient. -/
theorem value_reduce (num : ℤ) (den : ℕ) (positive : 0 < den) :
    (reduce num den positive).value = num / den := by
  have common : 0 < num.natAbs.gcd den := Nat.gcd_pos_of_pos_right _ positive
  have divides : ((num.natAbs.gcd den : ℕ) : ℤ) ∣ num :=
    Int.ofNat_dvd_left.2 (Nat.gcd_dvd_left _ _)
  have nonzero : ((num.natAbs.gcd den : ℕ) : ℚ) ≠ 0 := Nat.cast_ne_zero.2 common.ne'
  simp only [value, reduce]
  rw [Int.cast_div divides (by exact_mod_cast nonzero), Int.cast_natCast,
    Nat.cast_div (Nat.gcd_dvd_right _ _) nonzero]
  exact div_div_div_cancel_right₀ nonzero _ _

@[simp] theorem value_ofInt (n : ℤ) : (ofInt n).value = n := by
  change (n : ℚ) / ((1 : ℕ) : ℚ) = n
  simp

@[simp] theorem value_zero : (0 : Fraction).value = 0 := (value_ofInt 0).trans Int.cast_zero

@[simp] theorem value_one : (1 : Fraction).value = 1 := (value_ofInt 1).trans Int.cast_one

theorem num_eq_zero_iff {a : Fraction} : a.num = 0 ↔ a.value = 0 := by
  simp [value, div_eq_zero_iff, a.den_ne_zero]

theorem isZero_iff {a : Fraction} : a.isZero = true ↔ a.value = 0 := by
  rw [isZero, beq_iff_eq, num_eq_zero_iff]

/-! ## Arithmetic -/

@[simp] theorem value_add (a b : Fraction) : (a + b).value = a.value + b.value := by
  change (add a b).value = _
  rw [add, value_reduce]
  have ha := a.den_ne_zero
  have hb := b.den_ne_zero
  simp only [value]
  push_cast
  field_simp

@[simp] theorem value_neg (a : Fraction) : (-a).value = -a.value := by
  change (neg a).value = _
  simp [value, neg, neg_div]

@[simp] theorem value_sub (a b : Fraction) : (a - b).value = a.value - b.value := by
  change (a + -b).value = _
  rw [value_add, value_neg, sub_eq_add_neg]

@[simp] theorem value_mul (a b : Fraction) : (a * b).value = a.value * b.value := by
  change (mul a b).value = _
  rw [mul, value_reduce]
  simp only [value]
  push_cast
  exact (div_mul_div_comm _ _ _ _).symm

@[simp] theorem value_abs (a : Fraction) : a.abs.value = |a.value| := by
  have positive : (0 : ℚ) < a.den := Nat.cast_pos.2 a.den_pos
  simp [value, abs, abs_div, abs_of_pos positive, Nat.cast_natAbs]

/-- Division by zero is refused. -/
theorem divide_of_eq_zero {a b : Fraction} (zero : b.value = 0) :
    a.divide b = .error .divideByZero := by
  rw [divide, dif_pos (num_eq_zero_iff.2 zero)]

/-- Division by anything else is exact. -/
theorem exists_divide (a : Fraction) {b : Fraction} (nonzero : b.value ≠ 0) :
    ∃ q, a.divide b = .ok q ∧ q.value = a.value / b.value := by
  have num_ne_zero : b.num ≠ 0 := mt num_eq_zero_iff.1 nonzero
  refine ⟨_, dif_neg num_ne_zero, ?_⟩
  rw [value_reduce]
  have hb : (b.num : ℚ) ≠ 0 := Int.cast_ne_zero.2 num_ne_zero
  -- The sign moves from the divisor to the numerator.
  have magnitude : ((b.num.natAbs : ℕ) : ℚ) = b.num * b.num.sign := by
    rw [← Int.cast_natCast, ← Int.cast_mul, Int.mul_sign_self]
  have sign : (b.num.sign : ℚ) ≠ 0 := by
    exact_mod_cast mt Int.sign_eq_zero_iff_zero.1 num_ne_zero
  have ha := a.den_ne_zero
  have hd := b.den_ne_zero
  simp only [value]
  push_cast
  rw [magnitude]
  field_simp

/-! ## Order -/

/-- Fractions are compared as their values are. -/
theorem compare_eq (a b : Fraction) : compare a b = compare a.value b.value := by
  have positive (c : Fraction) : (0 : ℚ) < c.den := Nat.cast_pos.2 c.den_pos
  have less (c d : Fraction) : c.num * d.den < d.num * c.den ↔ c.value < d.value := by
    rw [value, value, div_lt_div_iff₀ (positive c) (positive d)]
    exact_mod_cast Iff.rfl
  change compare (a.num * b.den) (b.num * a.den) = _
  rcases lt_trichotomy a.value b.value with lt | eq | gt
  · rw [compare_lt_iff_lt.2 lt, compare_lt_iff_lt.2 ((less a b).2 lt)]
  · rw [compare_eq_iff_eq.2 eq, value_injective eq, compare_eq_iff_eq.2 rfl]
  · rw [compare_gt_iff_gt.2 gt, compare_gt_iff_gt.2 ((less b a).2 gt)]

end Stepwise.Fraction
