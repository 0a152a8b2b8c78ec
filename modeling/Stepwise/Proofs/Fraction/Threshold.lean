import Stepwise.Proofs.Binary64.Total
import Stepwise.Proofs.Fraction.ToFloat

/-!
# Fractions compared with a float

A fraction is compared by way of its own float. Far from the other float this tells the truth as
long as the parts of the fraction are in range.

- `toFloat_lt_iff_of_small`: fractions below half of a float
- `toFloat_lt_iff_of_great`: fractions above the double of a float
-/

namespace Stepwise.Fraction

open Binary64 (InRange)

variable {f : Fraction} {t : Float}

/-- Below a float that is not among the least ones there is another that is not less than two thirds
of it. -/
theorem exists_onGrid_lt (finite : t.isFinite = true) (great : 2 ^ (-1072 : ℤ) ≤ Binary64.value t) :
    ∃ g, Binary64.OnGrid g ∧ g < Binary64.value t ∧ 2 / 3 * Binary64.value t ≤ g := by
  have pos : 0 < Binary64.value t := great.trans_lt' (by positivity)
  have inRange := Binary64.inRange_value finite
  obtain ⟨m, e, canonical, -, same⟩ :=
    ((Binary64.isNearest_value finite).rounds inRange).exists_canonical inRange
  change |Binary64.value t| = _ at same
  rw [abs_of_pos pos] at same
  rw [same] at great ⊢
  have unit : (0 : ℚ) < 2 ^ e := by positivity
  -- With the least exponent, a mantissa of one or two would make one of the least floats.
  have many : 3 ≤ m := by
    by_contra! few
    obtain rfl : e = -1074 := by
      by_contra other
      exact absurd (canonical.le_of_ne other) (by omega)
    have bound : (m : ℚ) ≤ 2 := by exact_mod_cast Nat.le_of_lt_succ few
    have four : (2 : ℚ) ^ (-1072 : ℤ) = 4 * 2 ^ (-1074 : ℤ) := by
      rw [show (-1072 : ℤ) = 2 + -1074 by rfl, zpow_add₀ two_ne_zero]
      norm_num
    rw [four, mul_le_mul_iff_left₀ unit] at great
    linarith
  have many' : (3 : ℚ) ≤ m := by exact_mod_cast many
  have few : |(m - 1 : ℤ)| < 2 ^ 53 := by
    have := canonical.lt
    rw [abs_of_pos (by omega)]
    omega
  refine ⟨(m - 1 : ℤ) * 2 ^ e, Binary64.onGrid_intCast_mul few canonical.minExponent_le, ?_, ?_⟩
  · push_cast
    exact mul_lt_mul_of_pos_right (by linarith) unit
  · push_cast
    rw [← mul_assoc]
    exact mul_le_mul_of_nonneg_right (by linarith) unit.le

/-- Fractions with parts in range are zero or not very small. -/
theorem two_pow_le_value (pos : 0 < f.value) (den : InRange f.den) :
    2 ^ (-1024 : ℤ) ≤ f.value := by
  have den_pos : (0 : ℚ) < f.den := f.one_le_den.trans_lt' one_pos
  have num : (1 : ℚ) ≤ f.num := by
    rw [value, div_pos_iff_of_pos_right den_pos] at pos
    exact_mod_cast pos
  have bound : (f.den : ℚ) ≤ 2 ^ 1024 := by
    rw [InRange, Nat.abs_cast] at den
    exact den.le.trans Binary64.overflow_le_two_pow
  rw [value, zpow_neg, ← one_div]
  exact div_le_div₀ (by linarith) num den_pos (mod_cast bound)

theorem roundedQuotient_between (nonneg : 0 ≤ f.value) (num : InRange f.num) (den : InRange f.den) :
    1 / 2 * f.value ≤ f.roundedQuotient ∧ f.roundedQuotient ≤ 4 / 3 * f.value := by
  have error := abs_roundedQuotient_sub_le num den
  have share : (2 : ℚ) ^ (-51 : ℤ) * f.value ≤ 1 / 3 * f.value :=
    mul_le_mul_of_nonneg_right (by norm_num) nonneg
  rw [abs_of_nonneg nonneg, abs_le] at error
  generalize (2 : ℚ) ^ (-51 : ℤ) * f.value = δ at error share
  constructor <;> linarith

/-- Without a numerator in range, no fraction is found to be less than anything. -/
theorem not_toFloat_lt (nonneg : 0 ≤ f.value) (num : ¬ InRange f.num) : ¬ f.toFloat < t := by
  by_cases den : InRange f.den
  · have parts := unpack_toFloat_of_num num den
    rw [Binary64.signOf_of_nonneg nonneg] at parts
    exact Binary64.not_infinity_lt parts
  · have parts : f.toFloat.toModel.unpack = .notANumber := unpack_toFloat_of_parts num den
    exact fun lt => Binary64.not_notANumber_le parts (Binary64.le_of_lt lt)

/-- What vanishes is less than every float above zero. -/
theorem toFloat_lt_of_den (finite : t.isFinite = true) (pos : 0 < Binary64.value t)
    (num : InRange f.num) (den : ¬ InRange f.den) : f.toFloat < t := by
  obtain ⟨finite', zero⟩ := toFloat_of_den num den
  rwa [Binary64.lt_iff finite' finite, zero]

/-- A fraction below half of a float is found to be less, unless its numerator is out of range. -/
theorem toFloat_lt_iff_of_small (finite : t.isFinite = true) (nonneg : 0 ≤ f.value)
    (small : f.value < Binary64.value t / 2) : f.toFloat < t ↔ InRange f.num := by
  have pos : 0 < Binary64.value t := by linarith
  refine ⟨fun lt => by_contra fun num => not_toFloat_lt nonneg num lt, fun num => ?_⟩
  by_cases den : InRange f.den
  · have nearest := isNearest_roundedQuotient num den
    obtain ⟨above, below⟩ := roundedQuotient_between nonneg num den
    -- Rounding does not pass a float that is still less.
    obtain ⟨g, onGrid, less, between⟩ : ∃ g, Binary64.OnGrid g ∧ g < Binary64.value t ∧
        f.roundedQuotient ≤ g := by
      obtain zero | some := nonneg.eq_or_lt
      · exact ⟨0, Binary64.onGrid_zero, pos, by linarith⟩
      · have least := two_pow_le_value some den
        have coarse : (2 : ℚ) ^ (-1072 : ℤ) ≤ 2 ^ (-1024 : ℤ) :=
          zpow_le_zpow_right₀ one_le_two (by norm_num)
        obtain ⟨g, onGrid, less, two_thirds⟩ := exists_onGrid_lt finite (by linarith)
        exact ⟨g, onGrid, less, by linarith⟩
    have inRange : InRange f.roundedQuotient := by
      refine (Binary64.inRange_value finite).mono ?_
      rw [abs_of_nonneg (by linarith), abs_of_pos pos]
      exact between.trans less.le
    rw [Binary64.lt_iff (nearest.isFinite_iff.2 inRange) finite]
    exact ((nearest.rounds inRange).rational_le onGrid between).trans_lt less
  · exact toFloat_lt_of_den finite pos num den

/-- A fraction above the double of a float is found to be less just if its denominator alone is out
of range. -/
theorem toFloat_lt_iff_of_great (finite : t.isFinite = true) (pos : 0 < Binary64.value t)
    (great : 2 * Binary64.value t < f.value) :
    f.toFloat < t ↔ InRange f.num ∧ ¬ InRange f.den := by
  have nonneg : 0 ≤ f.value := by linarith
  refine ⟨fun lt => ?_, fun ⟨num, den⟩ => toFloat_lt_of_den finite pos num den⟩
  have num : InRange f.num := by_contra fun num => not_toFloat_lt nonneg num lt
  refine ⟨num, fun den => ?_⟩
  have above := (roundedQuotient_between nonneg num den).1
  exact (isNearest_roundedQuotient num den).computes.not_lt_of_le finite (by linarith) lt

end Stepwise.Fraction
