import Stepwise.Proofs.Binary64.Scientific
import Stepwise.Proofs.Fraction.Computation

/-!
# Decimals with five digits after the point

A whole number of hundred-thousandths becomes a float and a fraction again. The float is scaled
before it is cut off. Where it falls short of the decimal, so may the product, and then a unit of
the last digit is lost.

- `filled`, `LosesUnit`: which decimals lose a unit, told from their binary digits
- `computes_toFloat`: the float of a fraction is the nearest one
- `ofFloat_toFloat_iff`: the decimals that come back
-/

namespace Stepwise.Fraction

open Binary64 (OnGrid RoundsTo Computes)

/-- A whole number, with zeros put behind its binary digits until there are 69 of them. -/
def filled (n : ℕ) : ℕ := n * 2 ^ (68 - n.log2)

/-- The product of the nearest float and the scale falls short of `n` and is not rounded up to it.
The remainder tells how far the float is from `n / scale`: it is below by less than half of its last
place, but by so much of it that the product is nearer to the float before `n`. -/
def LosesUnit (n : ℕ) : Prop :=
  2 ^ 52 * scale ≤ filled n ∧ 2 ^ 15 < filled n % scale ∧ filled n % scale < scale / 2

instance : DecidablePred LosesUnit := fun n =>
  inferInstanceAs (Decidable (2 ^ 52 * scale ≤ filled n ∧ _ ∧ _))

/-! ## From fractions to floats -/

section

variable {f : Fraction}

theorem abs_value_le_num (f : Fraction) : |f.value| ≤ |(f.num : ℚ)| := by
  have positive : (1 : ℚ) ≤ f.den := by exact_mod_cast f.den_pos
  rw [value, abs_div, Nat.abs_cast]
  exact div_le_self (abs_nonneg _) positive

/-- Short parts are floats, so that the quotient is rounded once. -/
theorem computes_toFloat (num : |f.num| < 2 ^ 53) (den : f.den < 2 ^ 53) :
    f.toFloat.isFinite = true ∧ Computes f.value f.toFloat := by
  obtain ⟨first, numerator⟩ := Binary64.value_ofInt num
  obtain ⟨second, denominator⟩ := Binary64.value_ofNat den
  have nonzero : Binary64.value (Float.ofNat f.den) ≠ 0 := denominator ▸ f.den_ne_zero
  have computes := Binary64.computes_div first second nonzero
  have finite := Binary64.isFinite_div_iff first second nonzero
  rw [numerator, denominator] at computes finite
  exact ⟨finite.2 ((Binary64.inRange_intCast num).mono (abs_value_le_num f)), computes⟩

/-- The parts of a fraction are not greater than those of any other form of it. -/
theorem parts_le {k : ℤ} {n : ℕ} (positive : 0 < n) (same : f.value = k / n) :
    |f.num| ≤ |k| ∧ f.den ≤ n := by
  have scaled : f.num * n = k * f.den := by
    have den := f.den_ne_zero
    have nonzero : (n : ℚ) ≠ 0 := by exact_mod_cast positive.ne'
    rw [value, div_eq_div_iff den nonzero] at same
    exact_mod_cast same
  have magnitudes : f.num.natAbs * n = k.natAbs * f.den := by
    simpa [Int.natAbs_mul] using congrArg Int.natAbs scaled
  have den : f.den ∣ n :=
    f.coprime.symm.dvd_of_dvd_mul_left (Dvd.intro_left _ magnitudes.symm)
  refine ⟨?_, Nat.le_of_dvd positive den⟩
  have num : (f.num.natAbs : ℤ) ≤ k.natAbs := by
    have le : f.num.natAbs * n ≤ k.natAbs * n :=
      magnitudes.trans_le (Nat.mul_le_mul_left _ (Nat.le_of_dvd positive den))
    exact_mod_cast Nat.le_of_mul_le_mul_right le positive
  rwa [Int.natCast_natAbs, Int.natCast_natAbs] at num

end

/-! ## From floats to fractions -/

theorem wholePart_eq_sign_mul (q : ℚ) : wholePart q = (SignType.sign q : ℤ) * ⌊|q|⌋ := by
  obtain neg | rfl | pos := lt_trichotomy q 0
  · rw [sign_neg neg, abs_of_neg neg, Int.floor_neg, wholePart, if_neg neg.not_ge]
    simp
  · simp [wholePart]
  · rw [sign_pos pos, abs_of_pos pos, wholePart, if_pos pos.le]
    simp

/-- Division of `n`, with `j` zeros put behind its binary digits, by the scale gives the digits of a
float, and what is left. -/
structure Digits (n j d r : ℕ) : Prop where
  division : n * 2 ^ j = d * scale + r
  rest_lt : r < scale
  canonical : Binary64.Canonical d (-j)

theorem eq_mul_of_mul_eq {p q : ℚ} {j : ℕ} (scaled : p * 2 ^ j = q) : p = q * 2 ^ (-j : ℤ) := by
  rw [← scaled, mul_assoc, zpow_neg, zpow_natCast, mul_inv_cancel₀ (by positivity), mul_one]

section

variable {n j d r : ℕ} {q : ℚ} {x : Float}

theorem Digits.eq_mul (digits : Digits n j d r) :
    (n : ℚ) = (d * scale + r) * 2 ^ (-j : ℤ) :=
  eq_mul_of_mul_eq (by exact_mod_cast digits.division)

theorem Digits.rest_le (digits : Digits n j d r) :
    (r * 2 ^ (-j : ℤ) : ℚ) ≤ scale * 2 ^ (-j : ℤ) := by
  have := digits.rest_lt.le
  gcongr

section

variable (digits : Digits n j d r) (magnitude : |q| = n / scale) (computes : Computes q x)
  (finite : x.isFinite = true)
include digits magnitude

theorem Digits.abs_eq : |q| = (d + r / scale) * 2 ^ (-j : ℤ) := by
  rw [magnitude, digits.eq_mul, scale]
  push_cast
  ring

include computes finite

/-- The float lies between two neighbours, as the quotient does. -/
theorem Digits.abs_value_between :
    d * 2 ^ (-j : ℤ) ≤ |Binary64.value x| ∧ |Binary64.value x| ≤ (d + 1) * 2 ^ (-j : ℤ) := by
  have positive : (0 : ℚ) < scale := by norm_num [scale]
  have rest : (r / scale : ℚ) ≤ 1 := by
    rw [div_le_one positive]
    exact_mod_cast digits.rest_lt.le
  have lower : OnGrid (d * 2 ^ (-j : ℤ)) :=
    ⟨.positive, d, -j, digits.canonical.lt, digits.canonical.minExponent_le, rfl⟩
  refine ⟨computes.le_abs_value finite lower ?_,
    computes.abs_value_le finite (Binary64.onGrid_succ digits.canonical) ?_⟩
  · rw [digits.abs_eq magnitude]
    gcongr
    exact le_add_of_nonneg_right (by positivity)
  · rw [digits.abs_eq magnitude]
    gcongr

/-- It is the first of them if less than half of the scale is left. The middle is never met, as the
scale has fewer factors of two than what is divided. -/
theorem Digits.abs_value_le_iff (many : 5 ≤ j) :
    |Binary64.value x| ≤ d * 2 ^ (-j : ℤ) ↔ r < scale / 2 := by
  have unit : (0 : ℚ) < 2 ^ (-j : ℤ) := by positivity
  have positive : (0 : ℚ) < scale := by norm_num [scale]
  have half : (r / scale : ℚ) < 1 / 2 ↔ r < scale / 2 := by
    rw [div_lt_div_iff₀ positive two_pos, scale]
    norm_cast
    omega
  have noTie : (r / scale : ℚ) ≠ 1 / 2 := by
    rw [Ne, div_eq_div_iff positive.ne' two_ne_zero, scale]
    norm_cast
    obtain ⟨k, rfl⟩ := Nat.exists_eq_add_of_le many
    have division := digits.division
    rw [pow_add, Nat.mul_left_comm, scale] at division
    omega
  refine ((computes.rounds finite).abs_le_iff d (-j) digits.canonical).trans ?_
  rw [digits.abs_eq magnitude, mul_lt_mul_iff_left₀ unit, mul_left_inj' unit.ne',
    add_lt_add_iff_left, add_right_inj, half, or_iff_left fun tie => noTie tie.2]

end

end

/-! ## The product -/

section

variable {n i c d r m : ℕ} {q : ℚ} {x y : Float} (digits : Digits n (i + c) d r)
  (magnitude : |q| = n / scale) (computes : Computes q x) (finite : x.isFinite = true)
include digits magnitude computes finite

theorem Digits.abs_mul_scale_between (fine : 18 ≤ i + c) :
    n - 1 / 2 ≤ |Binary64.value x * scale| ∧ |Binary64.value x * scale| ≤ n + 1 / 2 := by
  obtain ⟨above, below⟩ := digits.abs_value_between magnitude computes finite
  have unit : (scale : ℚ) * 2 ^ (-(i + c : ℕ) : ℤ) ≤ 1 / 2 := by
    calc (scale : ℚ) * 2 ^ (-(i + c : ℕ) : ℤ) ≤ scale * 2 ^ (-18 : ℤ) := by
          gcongr
          · norm_num
          · omega
      _ ≤ 1 / 2 := by norm_num [scale]
  have rest := digits.rest_le
  have rest_nonneg : (0 : ℚ) ≤ r * 2 ^ (-(i + c : ℕ) : ℤ) := by positivity
  have positive : (0 : ℚ) ≤ scale := by positivity
  rw [abs_mul, Nat.abs_cast, digits.eq_mul]
  constructor
  · linarith [mul_le_mul_of_nonneg_right above positive]
  · linarith [mul_le_mul_of_nonneg_right below positive]

/-- A float that is not below the decimal makes no product below the whole number. -/
theorem Digits.le_abs_mul_scale (many : 5 ≤ i + c) (large : scale / 2 ≤ r) :
    n ≤ |Binary64.value x * scale| := by
  have passed := mt (digits.abs_value_le_iff magnitude computes finite many).1 large.not_gt
  rw [← (Binary64.onGrid_value finite).abs_lt_succ_iff digits.canonical, not_lt] at passed
  have positive : (0 : ℚ) ≤ scale := by positivity
  have rest := digits.rest_le
  rw [abs_mul, Nat.abs_cast, digits.eq_mul]
  linarith [mul_le_mul_of_nonneg_right passed positive]

theorem Digits.abs_mul_scale_lt_iff (many : 5 ≤ i + c) :
    |Binary64.value x * scale| < n - 1 / 2 * 2 ^ (-i : ℤ) ↔ 2 ^ c < 2 * r ∧ r < scale / 2 := by
  obtain small | large := Nat.lt_or_ge r (scale / 2)
  · have exact := le_antisymm ((digits.abs_value_le_iff magnitude computes finite many).2 small)
      (digits.abs_value_between magnitude computes finite).1
    have unit : (0 : ℚ) < 2 ^ (-(i + c : ℕ) : ℤ) := by positivity
    have coarse : (2 : ℚ) ^ (-i : ℤ) = 2 ^ c * 2 ^ (-(i + c : ℕ) : ℤ) := by
      rw [← zpow_natCast, ← zpow_add₀ two_ne_zero]
      congr 1
      omega
    rw [and_iff_left small, abs_mul, Nat.abs_cast, exact, digits.eq_mul, coarse]
    have shortfall : 2 ^ c * 2 ^ (-(i + c : ℕ) : ℤ) < (2 * r * 2 ^ (-(i + c : ℕ) : ℤ) : ℚ) ↔
        2 ^ c < 2 * r := by
      rw [mul_lt_mul_iff_left₀ unit]
      norm_cast
    rw [← shortfall]
    constructor <;> intro <;> linarith
  · have reached := digits.le_abs_mul_scale magnitude computes finite many large
    have gap : (0 : ℚ) < 1 / 2 * 2 ^ (-i : ℤ) := by positivity
    exact iff_of_false (by linarith) fun both => large.not_gt both.2

end

/-! ## Which decimals come back -/

theorem digits_of_bounds {n j : ℕ} (least : 2 ^ 52 * scale ≤ n * 2 ^ j)
    (lt : n * 2 ^ j < 2 ^ 53 * scale) (few : j ≤ 1074) :
    Digits n j (n * 2 ^ j / scale) (n * 2 ^ j % scale) where
  division := (Nat.div_add_mod' _ _).symm
  rest_lt := Nat.mod_lt _ (by decide)
  canonical := by
    refine ⟨Nat.div_lt_of_lt_mul (by rwa [mul_comm scale]), by omega, fun _ => ?_⟩
    exact (Nat.le_div_iff_mul_le (by decide)).2 least

/-- The binary digits of a whole number of at most ten decimal digits fill a mantissa, with zeros to
spare. -/
theorem exists_mantissa {n : ℕ} (positive : 0 < n) (few : n ≤ 10 ^ 10) :
    ∃ i, 19 ≤ i ∧ i ≤ 52 ∧ 2 ^ 52 ≤ n * 2 ^ i ∧ n * 2 ^ i < 2 ^ 53 ∧ n * 2 ^ i % 2 = 0 ∧
      filled n = n * 2 ^ (i + 16) := by
  have log : n.log2 ≤ 33 := Nat.lt_succ_iff.1 ((Nat.log2_lt positive.ne').2 (by omega))
  refine ⟨52 - n.log2, by omega, by omega, ?_, ?_, ?_, ?_⟩
  · calc 2 ^ 52 = 2 ^ n.log2 * 2 ^ (52 - n.log2) := by rw [← pow_add]; congr 1; omega
      _ ≤ n * 2 ^ (52 - n.log2) := Nat.mul_le_mul_right _ (Nat.log2_self_le positive.ne')
  · calc n * 2 ^ (52 - n.log2) < 2 ^ (n.log2 + 1) * 2 ^ (52 - n.log2) :=
          Nat.mul_lt_mul_of_pos_right Nat.lt_log2_self (by positivity)
      _ = 2 ^ 53 := by rw [← pow_add]; congr 1; omega
  · obtain ⟨k, zeros⟩ := Nat.exists_eq_add_of_lt (show 0 < 52 - n.log2 by omega)
    rw [zeros, zero_add, pow_succ, ← mul_assoc, Nat.mul_mod_left]
  · rw [filled, show 68 - n.log2 = 52 - n.log2 + 16 by omega]

/-- With 69 or 70 binary digits, a quotient by the scale has a mantissa's digits. Which of both
numbers it is decides how much of the scale may be left. -/
theorem exists_digits {n : ℕ} (positive : 0 < n) (few : n ≤ 10 ^ 10) :
    ∃ i c d r, Digits n (i + c) d r ∧ 18 ≤ i + c ∧
      (LosesUnit n ↔ 2 ^ c < 2 * r ∧ r < scale / 2) ∧
      (r < scale / 2 → ∃ m, Binary64.Canonical m (-i) ∧ m % 2 = 1 ∧ n * 2 ^ i = m + 1) := by
  obtain ⟨i, least, most, many, lt, even, zeros⟩ := exists_mantissa positive few
  have mantissa (above : 2 ^ 52 < n * 2 ^ i) :
      ∃ m, Binary64.Canonical m (-i) ∧ m % 2 = 1 ∧ n * 2 ^ i = m + 1 :=
    ⟨n * 2 ^ i - 1, ⟨by omega, by omega, fun _ => by omega⟩, by omega, by omega⟩
  rw [LosesUnit, zeros]
  have shorter : n * 2 ^ (i + 16) = n * 2 ^ i * 2 ^ 16 := by rw [pow_add, mul_assoc]
  have longer : n * 2 ^ (i + 17) = n * 2 ^ i * 2 ^ 17 := by rw [pow_add, mul_assoc]
  by_cases great : 2 ^ 52 * scale ≤ n * 2 ^ (i + 16)
  · refine ⟨i, 16, _, _, digits_of_bounds great ?_ (by omega), by omega, ?_, fun _ => mantissa ?_⟩
    · rw [shorter, scale]
      omega
    · rw [and_iff_right great]
      omega
    · rw [shorter, scale] at great
      omega
  · rw [shorter, scale] at great
    refine ⟨i, 17, _, _, digits_of_bounds ?_ ?_ (by omega), by omega, ?_, fun small => mantissa ?_⟩
    · rw [longer, scale]
      omega
    · rw [longer, scale]
      omega
    · rw [longer, shorter, scale]
      omega
    · -- A power of two leaves more than half of the scale.
      refine many.lt_of_ne fun power => ?_
      rw [longer, ← power, scale] at small
      omega

theorem computes_scaled {x : Float} (finite : x.isFinite = true) :
    Computes (Binary64.value x * scale) (x * scale.toFloat) := by
  rw [← value_scale]
  exact Binary64.computes_mul finite isFinite_scale

theorem onGrid_natCast {n : ℕ} (few : n ≤ 10 ^ 10) : OnGrid n :=
  mod_cast Binary64.onGrid_intCast (k := n) (by rw [Nat.abs_cast]; omega)

theorem onGrid_natCast_sub_half {n : ℕ} (positive : 0 < n) (few : n < 2 ^ 52) :
    OnGrid (n - 1 / 2) := by
  have magnitude : |(2 * n - 1 : ℤ)| < 2 ^ 53 := by
    rw [abs_of_pos (by omega)]
    omega
  have onGrid := Binary64.onGrid_intCast_mul (e := -1) magnitude (by norm_num)
  have half : ((2 * n - 1 : ℤ) * 2 ^ (-1 : ℤ) : ℚ) = n - 1 / 2 := by
    push_cast
    rw [zpow_neg_one]
    ring
  rwa [half] at onGrid

section

variable {n : ℕ} {q : ℚ} {x : Float} (positive : 0 < n) (few : n ≤ 10 ^ 10)
  (magnitude : |q| = n / scale) (computes : Computes q x) (finite : x.isFinite = true)
include positive few magnitude computes finite

/-- Before it is rounded, the product is off by half a unit at most. -/
theorem abs_mul_scale_between :
    n - 1 / 2 ≤ |Binary64.value x * scale| ∧ |Binary64.value x * scale| ≤ n + 1 / 2 := by
  obtain ⟨i, c, d, r, digits, many, -, -⟩ := exists_digits positive few
  exact digits.abs_mul_scale_between magnitude computes finite many

theorem isFinite_scaled : (x * scale.toFloat).isFinite = true := by
  have below := (abs_mul_scale_between positive few magnitude computes finite).2
  have small : |((n + 1 : ℤ) : ℚ)| = n + 1 := by
    push_cast
    exact abs_of_nonneg (by positivity)
  rw [Binary64.isFinite_mul_iff finite isFinite_scale, value_scale]
  refine (Binary64.inRange_intCast (k := n + 1) ?_).mono ?_
  · rw [abs_of_pos (by positivity)]
    omega
  · rw [small]
    linarith

/-- Nor does rounding take it farther off. -/
theorem abs_value_scaled_between :
    n - 1 / 2 ≤ |Binary64.value (x * scale.toFloat)| ∧
      |Binary64.value (x * scale.toFloat)| ≤ n + 1 / 2 := by
  obtain ⟨above, below⟩ := abs_mul_scale_between positive few magnitude computes finite
  have product := computes_scaled finite
  have whole := isFinite_scaled positive few magnitude computes finite
  have lower : OnGrid (n - 1 / 2) := onGrid_natCast_sub_half positive (by omega)
  have upper : OnGrid ((n + 1 : ℕ) - 1 / 2) := onGrid_natCast_sub_half n.succ_pos (by omega)
  have next : ((n + 1 : ℕ) - 1 / 2 : ℚ) = n + 1 / 2 := by
    push_cast
    ring
  rw [next] at upper
  exact ⟨product.le_abs_value whole lower above, product.abs_value_le whole upper below⟩

/-- Rounding takes the product below the whole number exactly if a unit is lost. -/
theorem abs_value_scaled_lt_iff :
    |Binary64.value (x * scale.toFloat)| < n ↔ LosesUnit n := by
  have product := computes_scaled finite
  have whole := isFinite_scaled positive few magnitude computes finite
  obtain ⟨i, c, d, r, digits, many, loses, mantissa⟩ := exists_digits positive few
  rw [loses]
  obtain small | large := Nat.lt_or_ge r (scale / 2)
  · obtain ⟨m, canonical, odd, same⟩ := mantissa small
    rw [← digits.abs_mul_scale_lt_iff magnitude computes finite (by omega)]
    have next : (n : ℚ) = (m + 1) * 2 ^ (-i : ℤ) := eq_mul_of_mul_eq (by exact_mod_cast same)
    have middle : (n - 1 / 2 * 2 ^ (-i : ℤ) : ℚ) = (m + 1 / 2) * 2 ^ (-i : ℤ) := by
      rw [next]
      ring
    rw [middle, next]
    exact product.abs_value_lt_succ_iff whole canonical odd
  · have reached := digits.le_abs_mul_scale magnitude computes finite (by omega) large
    have rounded := product.le_abs_value whole (onGrid_natCast few) reached
    exact iff_of_false rounded.not_gt fun both => large.not_gt both.2

theorem floor_abs_value_scaled :
    ⌊|Binary64.value (x * scale.toFloat)|⌋ = if LosesUnit n then (n : ℤ) - 1 else n := by
  obtain ⟨above, below⟩ := abs_value_scaled_between positive few magnitude computes finite
  have loses := abs_value_scaled_lt_iff positive few magnitude computes finite
  rw [Int.floor_eq_iff]
  split
  next lost =>
    have less := loses.2 lost
    push_cast
    exact ⟨by linarith, by linarith⟩
  next kept =>
    have reached := not_lt.1 (mt loses.1 kept)
    push_cast
    exact ⟨by linarith, by linarith⟩

theorem sign_value_scaled :
    SignType.sign (Binary64.value (x * scale.toFloat)) = SignType.sign q := by
  have nonzero {q : ℚ} (above : n - 1 / 2 ≤ |q|) : q ≠ 0 := by
    rintro rfl
    have one : (1 : ℚ) ≤ n := by exact_mod_cast positive
    rw [abs_zero] at above
    linarith
  have above := (abs_mul_scale_between positive few magnitude computes finite).1
  have above' := (abs_value_scaled_between positive few magnitude computes finite).1
  have whole := isFinite_scaled positive few magnitude computes finite
  have scaled : SignType.sign (scale : ℚ) = 1 := sign_pos (by norm_num [scale])
  rw [(computes_scaled finite).sign_value whole (nonzero above'), sign_mul, scaled, mul_one,
    computes.sign_value finite (left_ne_zero_of_mul (nonzero above))]

end

theorem ofFloat_of_isFinite {x : Float} (product : (x * scale.toFloat).isFinite = true) :
    ofFloat x = .ok
      (reduce (wholePart (Binary64.value (x * scale.toFloat))) scale (by decide)) := by
  rw [ofFloat, truncate?_eq_wholePart product]

theorem sign_div_scale (k : ℤ) : (SignType.sign (k / scale : ℚ) : ℤ) = k.sign := by
  have scaled : SignType.sign (scale : ℚ)⁻¹ = 1 := sign_pos (by norm_num [scale])
  rw [div_eq_mul_inv, sign_mul, scaled, mul_one, sign_intCast, Int.sign_eq_sign]

/-- A float that a decimal with five digits is rounded to becomes this decimal again, or the one
before it on the way to zero. -/
theorem ofFloat_of_computes {x : Float} {k : ℤ} (few : |k| ≤ 10 ^ 10)
    (computes : Computes (k / scale) x) (finite : x.isFinite = true) :
    ofFloat x = .ok (reduce (if LosesUnit k.natAbs then k - k.sign else k) scale (by decide)) := by
  obtain rfl | nonzero := eq_or_ne k 0
  · rw [Int.cast_zero, zero_div] at computes
    have zero := computes.value_eq finite Binary64.onGrid_zero
    have whole : (x * scale.toFloat).isFinite = true := by
      rw [Binary64.isFinite_mul_iff finite isFinite_scale, zero, zero_mul]
      exact Binary64.inRange_zero
    have product := computes_scaled finite
    rw [zero, zero_mul] at product
    rw [ofFloat_of_isFinite whole, product.value_eq whole Binary64.onGrid_zero,
      if_neg (by decide)]
    congr
  · have positive : 0 < k.natAbs := Int.natAbs_pos.2 nonzero
    have digits : k.natAbs ≤ 10 ^ 10 := by
      rw [Int.abs_eq_natAbs] at few
      exact_mod_cast few
    have magnitude : |(k / scale : ℚ)| = k.natAbs / scale := by
      rw [abs_div, Nat.abs_cast, Nat.cast_natAbs, Int.cast_abs]
    have whole := isFinite_scaled positive digits magnitude computes finite
    rw [ofFloat_of_isFinite whole, wholePart_eq_sign_mul,
      sign_value_scaled positive digits magnitude computes finite,
      floor_abs_value_scaled positive digits magnitude computes finite, sign_div_scale]
    congr
    split
    · rw [mul_sub, mul_one, Int.sign_mul_natAbs]
    · rw [Int.sign_mul_natAbs]

/-- Which decimals with five digits after the point survive as floats: those whose product with the
scale is not rounded to less than a whole number. The others come back with one unit less in the
last digit. So it is for every float that the decimal is rounded to, of which the float of the
fraction is one. -/
theorem ofFloat_toFloat_iff {f : Fraction} {k : ℤ} (same : f.value = k / scale)
    (few : |k| ≤ 10 ^ 10) :
    (f.toFloat.isFinite = true ∧ RoundsTo f.value f.toFloat.toModel.unpack) ∧
      (ofFloat f.toFloat = .ok f ↔ ¬ LosesUnit k.natAbs) ∧
      ∀ x : Float, x.isFinite = true → RoundsTo f.value x.toModel.unpack →
        ofFloat x =
          .ok (if LosesUnit k.natAbs then reduce (k - k.sign) scale (by decide) else f) := by
  have reduced : f = reduce k scale (by decide) := value_injective (by rw [same, value_reduce])
  have read (x : Float) (finite : x.isFinite = true) (computes : Computes f.value x) :
      ofFloat x =
        .ok (if LosesUnit k.natAbs then reduce (k - k.sign) scale (by decide) else f) := by
    rw [same] at computes
    rw [ofFloat_of_computes few computes finite]
    split
    · rfl
    · rw [reduced]
  obtain ⟨num, den⟩ := parts_le (by decide) same
  obtain ⟨finite, computes⟩ := computes_toFloat (f := f)
    (num.trans_lt (few.trans_lt (by norm_num))) (den.trans_lt (by decide))
  refine ⟨⟨finite, computes.rounds finite⟩, ?_,
    fun x finite rounds => read x finite (.finite finite rounds)⟩
  rw [read _ finite computes]
  split
  next lost =>
    refine iff_of_false (fun kept => absurd lost ?_) (not_not_intro lost)
    have values := congrArg value (Except.ok.inj kept)
    rw [value_reduce, same, div_left_inj' (by norm_num [scale]), Int.cast_inj, sub_eq_self,
      Int.sign_eq_zero_iff_zero] at values
    rw [values]
    decide
  next kept => exact iff_of_true rfl kept

theorem ofFloat_toFloat_half :
    let f : Fraction := { num := 1, den := 2 }
    f.value = (50000 : ℤ) / scale ∧ |(50000 : ℤ)| ≤ 10 ^ 10 ∧ ofFloat f.toFloat = .ok f := by
  intro f
  have same : f.value = (50000 : ℤ) / scale := by norm_num [value, f, scale]
  have few : |(50000 : ℤ)| ≤ 10 ^ 10 := by decide
  exact ⟨same, few, (ofFloat_toFloat_iff same few).2.1.2 (by decide)⟩

/-- The float of 0.29 is below it, and its product with the scale is below 29000 even when it is
rounded. -/
theorem ofFloat_toFloat_loses_unit :
    let f : Fraction := { num := 29, den := 100 }
    f.value = (29000 : ℤ) / scale ∧ |(29000 : ℤ)| ≤ 10 ^ 10 ∧ (f.toFloat == 0.29) = true ∧
      ofFloat f.toFloat = .ok { num := 28999, den := 100000 } := by
  intro f
  have cut : (Binary64.ofFloat (f.toFloat * scale.toFloat)).truncate? = some 28999 := by
    decide +kernel
  refine ⟨by norm_num [value, f, scale], by decide, by decide +kernel, ?_⟩
  rw [ofFloat, cut]
  rfl

end Stepwise.Fraction
