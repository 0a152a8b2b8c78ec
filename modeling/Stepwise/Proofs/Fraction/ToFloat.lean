import Stepwise.Proofs.Binary64.Scientific
import Stepwise.Proofs.Fraction.Computation

/-!
# Fractions as floats

Numerator and denominator are rounded before they are divided. The quotient is that of the rounded
parts, so it is not always the nearest float, and long parts make it an infinity, zero or no number
at all though the fraction itself is in range.

- `roundedQuotient`: the quotient of the rounded parts
- `abs_roundedQuotient_sub_le`: how far it is from the fraction
- `isNearest_toFloat_iff`: when a fraction becomes the nearest float
-/

namespace Stepwise.Fraction

open Binary64 (InRange IsNearest RoundAlike signOf)
open Float.Model

/-- The quotient of the parts, each rounded to the nearest float. -/
def roundedQuotient (f : Fraction) : ℚ :=
  Binary64.value (Float.ofInt f.num) / Binary64.value (Float.ofNat f.den)

section

variable {f : Fraction}

/-! ## Parts -/

theorem isNearest_num (f : Fraction) : IsNearest f.num (Float.ofInt f.num) :=
  Binary64.isNearest_ofInt f.num

theorem isNearest_den (f : Fraction) : IsNearest f.den (Float.ofNat f.den) :=
  Binary64.isNearest_ofNat f.den

theorem one_le_den (f : Fraction) : (1 : ℚ) ≤ f.den := by exact_mod_cast f.den_pos

/-- The denominator is not rounded below one. -/
theorem one_le_value_den (den : InRange f.den) : 1 ≤ Binary64.value (Float.ofNat f.den) :=
  (f.isNearest_den.rounds den).le_rational Binary64.onGrid_one f.one_le_den

theorem value_den_pos (den : InRange f.den) : 0 < Binary64.value (Float.ofNat f.den) :=
  one_pos.trans_le (one_le_value_den den)

theorem sign_div_of_pos {p q : ℚ} (pos : 0 < q) : SignType.sign (p / q) = SignType.sign p := by
  rw [div_eq_mul_inv, sign_mul, sign_pos (inv_pos.2 pos), mul_one]

theorem sign_value (f : Fraction) : SignType.sign f.value = SignType.sign (f.num : ℚ) :=
  sign_div_of_pos (by exact_mod_cast f.den_pos)

/-- The numerator keeps its sign. -/
theorem sign_value_num (num : InRange f.num) :
    SignType.sign (Binary64.value (Float.ofInt f.num)) = SignType.sign (f.num : ℚ) := by
  have finite := f.isNearest_num.isFinite_iff.2 num
  obtain zero | nonzero := eq_or_ne f.num 0
  · have onGrid : Binary64.OnGrid (f.num : ℚ) := by
      rw [zero, Int.cast_zero]
      exact Binary64.onGrid_zero
    rw [f.isNearest_num.computes.value_eq finite onGrid]
  · refine f.isNearest_num.computes.sign_value finite fun vanished => ?_
    have least : (1 : ℚ) ≤ |(f.num : ℚ)| := by exact_mod_cast Int.one_le_abs nonzero
    have bound := f.isNearest_num.computes.le_abs_value finite Binary64.onGrid_one least
    rw [vanished, abs_zero] at bound
    exact bound.not_gt one_pos

/-! ## The quotient -/

theorem isNearest_roundedQuotient (num : InRange f.num) (den : InRange f.den) :
    IsNearest f.roundedQuotient f.toFloat :=
  Binary64.isNearest_div (f.isNearest_num.isFinite_iff.2 num) (f.isNearest_den.isFinite_iff.2 den)
    (value_den_pos den).ne'

theorem sign_roundedQuotient (num : InRange f.num) (den : InRange f.den) :
    SignType.sign f.value = SignType.sign f.roundedQuotient := by
  rw [sign_value, roundedQuotient, sign_div_of_pos (value_den_pos den), sign_value_num num]

/-- A whole number is off by a share of `2 ^ -53` at most. -/
theorem abs_value_sub_le {k : ℤ} {z : Float} (nearest : IsNearest k z) (inRange : InRange k) :
    |Binary64.value z - k| ≤ 2 ^ (-53 : ℤ) * |(k : ℚ)| := by
  obtain rfl | nonzero := eq_or_ne k 0
  · have exact := nearest.computes.value_eq (nearest.isFinite_iff.2 inRange)
      (mod_cast Binary64.onGrid_zero)
    rw [exact, sub_self, abs_zero]
    positivity
  · have least : (1 : ℚ) ≤ |(k : ℚ)| := by exact_mod_cast Int.one_le_abs nonzero
    refine (nearest.rounds inRange).abs_sub_le (least.trans' ?_)
    exact zpow_le_one_of_nonpos₀ one_le_two (by norm_num)

/-- Parts that are off by a small share make a quotient that is off by at most four times as
much. -/
theorem abs_div_sub_div_le {p q n d ε : ℚ} (q_pos : 0 < q) (d_pos : 0 < d) (nonneg : 0 ≤ ε)
    (small : ε ≤ 1 / 2) (first : |p - n| ≤ ε * |n|) (second : |q - d| ≤ ε * d) :
    |p / q - n / d| ≤ 4 * ε * |n / d| := by
  have half : d ≤ 2 * q := by
    have share : ε * d ≤ 1 / 2 * d := mul_le_mul_of_nonneg_right small d_pos.le
    linarith [(abs_le.1 second).1]
  have difference : p / q - n / d = ((p - n) * d - n * (q - d)) / (q * d) := by
    field_simp
    ring
  have magnitude : |n / d| * (q * d) = |n| * q := by
    rw [abs_div, abs_of_pos d_pos]
    field_simp
  rw [difference, abs_div, abs_of_pos (mul_pos q_pos d_pos), div_le_iff₀ (mul_pos q_pos d_pos),
    mul_assoc, magnitude]
  calc |(p - n) * d - n * (q - d)| ≤ |p - n| * d + |n| * |q - d| := by
        refine (abs_sub _ _).trans_eq ?_
        rw [abs_mul, abs_mul, abs_of_pos d_pos]
    _ ≤ ε * |n| * d + |n| * (ε * d) := by gcongr
    _ = 2 * (ε * |n|) * d := by ring
    _ ≤ 2 * (ε * |n|) * (2 * q) := by gcongr
    _ = 4 * ε * (|n| * q) := by ring

/-- So the quotient of the rounded parts is off by a share of `2 ^ -51` at most. -/
theorem abs_roundedQuotient_sub_le (num : InRange f.num) (den : InRange f.den) :
    |f.roundedQuotient - f.value| ≤ 2 ^ (-51 : ℤ) * |f.value| := by
  have first := abs_value_sub_le f.isNearest_num num
  have second := abs_value_sub_le (k := f.den) (mod_cast f.isNearest_den) (mod_cast den)
  rw [Int.cast_natCast, Nat.abs_cast] at second
  have share : (2 ^ (-51 : ℤ) : ℚ) = 4 * 2 ^ (-53 : ℤ) := by norm_num
  rw [share]
  exact abs_div_sub_div_le (value_den_pos den) (f.one_le_den.trans_lt' one_pos) (by positivity)
    (by norm_num) first second

/-! ## Parts out of range -/

theorem unpack_toFloat (f : Fraction) : f.toFloat.toModel.unpack =
    (pack ((Float.ofInt f.num).toModel.unpack.div .binary64
      (Float.ofNat f.den).toModel.unpack)).unpack := rfl

/-- A long numerator makes an infinity. -/
theorem unpack_toFloat_of_num (num : ¬ InRange f.num) (den : InRange f.den) :
    f.toFloat.toModel.unpack = .infinity (signOf f.value) := by
  have pos := value_den_pos den
  rw [unpack_toFloat, f.isNearest_num.parts num, Binary64.signOf_congr f.sign_value.symm]
  obtain ⟨s, parts⟩ | ⟨s, m, e, _, parts⟩ :=
    Binary64.unpack_of_isFinite (f.isNearest_den.isFinite_iff.2 den)
  · rw [Binary64.value, parts, Binary64.rational_zero] at pos
    exact absurd rfl pos.ne
  · rw [Binary64.value, parts] at pos
    have unsigned (t : UnpackedFloat.Sign) : t / UnpackedFloat.Sign.positive = t := by
      cases t <;> rfl
    cases s with
    | positive => rw [parts, UnpackedFloat.div, Binary64.unpack_pack_infinity, unsigned]
    | negative =>
      have negative : (0 : ℚ) < m * 2 ^ e := by positivity
      rw [Binary64.rational_negative] at pos
      linarith

/-- A long denominator makes zero. -/
theorem toFloat_of_den (num : InRange f.num) (den : ¬ InRange f.den) :
    f.toFloat.isFinite = true ∧ Binary64.value f.toFloat = 0 := by
  have infinite : (Float.ofNat f.den).isFinite = false :=
    Bool.eq_false_of_not_eq_true (mt f.isNearest_den.isFinite_iff.1 den)
  exact Binary64.div_infinite (f.isNearest_num.isFinite_iff.2 num) f.isNearest_den.isNaN infinite

/-- Both together make no number. -/
theorem unpack_toFloat_of_parts (num : ¬ InRange f.num) (den : ¬ InRange f.den) :
    f.toFloat.toModel.unpack = .notANumber := by
  rw [unpack_toFloat, f.isNearest_num.parts num, f.isNearest_den.parts den, UnpackedFloat.div,
    Binary64.unpack_pack_notANumber]

theorem isNaN_toFloat_of_parts (num : ¬ InRange f.num) (den : ¬ InRange f.den) :
    f.toFloat.isNaN = true := by
  change f.toFloat.toModel.unpack.isNaN = true
  rw [unpack_toFloat_of_parts num den]
  rfl

theorem isNaN_toFloat_iff (f : Fraction) :
    f.toFloat.isNaN = true ↔ ¬ InRange f.num ∧ ¬ InRange f.den := by
  by_cases num : InRange f.num <;> by_cases den : InRange f.den
  · rw [(isNearest_roundedQuotient num den).isNaN]
    exact iff_of_false Bool.false_ne_true fun both => both.1 num
  · rw [Binary64.isNaN_of_isFinite (toFloat_of_den num den).1]
    exact iff_of_false Bool.false_ne_true fun both => both.1 num
  · rw [Binary64.isNaN_of_infinity (unpack_toFloat_of_num num den)]
    exact iff_of_false Bool.false_ne_true fun both => both.2 den
  · exact iff_of_true (isNaN_toFloat_of_parts num den) ⟨num, den⟩

end

/-! ## When it is the nearest float -/

/-- Every fraction becomes the quotient of its rounded parts, rounded once more, unless a part is out
of range. This is the nearest float exactly if there is no middle between neighbouring floats between
the fraction and the quotient of the rounded parts; if a part is out of range, exactly if an infinity
or zero is right. -/
theorem isNearest_toFloat_iff (f : Fraction) :
    IsNearest f.num (Float.ofInt f.num) ∧ IsNearest f.den (Float.ofNat f.den) ∧
    (InRange f.num → InRange f.den → IsNearest f.roundedQuotient f.toFloat ∧
      |f.roundedQuotient - f.value| ≤ 2 ^ (-51 : ℤ) * |f.value|) ∧
    (f.toFloat.isNaN = true ↔ ¬ InRange f.num ∧ ¬ InRange f.den) ∧
    (IsNearest f.value f.toFloat ↔
      InRange f.num ∧ InRange f.den ∧ RoundAlike f.value f.roundedQuotient ∨
      ¬ InRange f.num ∧ InRange f.den ∧ ¬ InRange f.value ∨
      InRange f.num ∧ ¬ InRange f.den ∧ |f.value| ≤ 2 ^ (-1075 : ℤ)) := by
  refine ⟨f.isNearest_num, f.isNearest_den, fun num den => ⟨isNearest_roundedQuotient num den,
    abs_roundedQuotient_sub_le num den⟩, f.isNaN_toFloat_iff, ?_⟩
  by_cases num : InRange f.num <;> by_cases den : InRange f.den
  · simp only [num, den, not_true, true_and, false_and, and_false, or_false]
    exact (isNearest_roundedQuotient num den).iff_roundAlike (sign_roundedQuotient num den)
  · obtain ⟨finite, zero⟩ := toFloat_of_den num den
    simp only [num, den, not_true, not_false_iff, true_and, false_and, and_false, false_or]
    exact Binary64.isNearest_iff_of_zero finite zero
  · have parts := unpack_toFloat_of_num num den
    simp only [num, den, not_true, not_false_iff, true_and, false_and, or_false, false_or]
    exact Binary64.isNearest_iff_of_infinity parts
  · simp only [num, den, false_and, and_false, or_false, iff_false]
    intro nearest
    exact Bool.false_ne_true (nearest.isNaN.symm.trans (isNaN_toFloat_of_parts num den))

/-- The numerator is the middle between two floats. -/
theorem unpack_toFloat_short :
    (reduce 9007199254740993 7 (by decide)).toFloat.toModel.unpack =
      .finite .positive 5146971002709138 (-2) (by decide) := by rfl

/-- Two roundings lead to the wrong neighbour, and a number in range becomes none after ten
squarings. -/
theorem not_isNearest_toFloat :
    let short := reduce 9007199254740993 7 (by decide)
    let long := (fun a : Fraction => a * a)^[10] (reduce 3 2 (by decide))
    ¬ IsNearest short.value short.toFloat ∧
      InRange long.value ∧ long.toFloat.isNaN = true ∧ ¬ IsNearest long.value long.toFloat := by
  intro short long
  have parts : long.num = (3 ^ 1024 : ℕ) ∧ long.den = 2 ^ 1024 := by decide +kernel
  have num : ¬ InRange long.num := by
    refine Binary64.not_inRange_of_two_pow_le ?_
    rw [parts.1, Int.cast_natCast, Nat.abs_cast, Nat.cast_pow, Nat.cast_ofNat]
    exact pow_le_pow_left₀ zero_le_two (by norm_num) 1024
  have den : ¬ InRange long.den := by
    refine Binary64.not_inRange_of_two_pow_le ?_
    rw [parts.2, Nat.abs_cast, Nat.cast_pow, Nat.cast_ofNat]
  have noNumber := isNaN_toFloat_of_parts num den
  refine ⟨fun nearest => ?_, ?_, noNumber, fun nearest => ?_⟩
  · have finite : short.toFloat.isFinite = true := by
      rw [Binary64.isFinite_iff, unpack_toFloat_short]
      rfl
    have next : Binary64.OnGrid ((5146971002709139 : ℤ) * 2 ^ (-2 : ℤ)) :=
      Binary64.onGrid_intCast_mul (by norm_num) (by norm_num)
    have near := nearest.computes.nearest finite next
    rw [Binary64.value, unpack_toFloat_short, Binary64.rational_positive, value_reduce] at near
    norm_num at near
  · have size : |long.value| = ((3 / 2) ^ 4) ^ 256 := by
      rw [value, parts.1, parts.2, Int.cast_natCast, Nat.cast_pow, Nat.cast_pow, Nat.cast_ofNat,
        Nat.cast_ofNat, ← div_pow, abs_of_pos (by positivity), ← pow_mul]
    refine Binary64.inRange_of_le_two_pow ?_
    rw [size]
    calc ((3 / 2 : ℚ) ^ 4) ^ 256 ≤ (2 ^ 3) ^ 256 := pow_le_pow_left₀ (by norm_num) (by norm_num) _
      _ = 2 ^ 768 := (pow_mul _ 3 256).symm
      _ ≤ 2 ^ 1023 := pow_le_pow_right₀ one_le_two (by norm_num)
  · exact Bool.false_ne_true (nearest.isNaN.symm.trans noNumber)

end Stepwise.Fraction
