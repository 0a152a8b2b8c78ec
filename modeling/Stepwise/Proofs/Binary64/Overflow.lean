import Stepwise.Proofs.Binary64.Arithmetic

/-!
# Products beyond all floats

A product is infinite exactly if its magnitude reaches the middle between the greatest float and the
next power of two.

- `overflow`: the least magnitude that is rounded to an infinity
- `Cut.rounded_lt_iff`: rounding reaches the power of two from there on
- `isFinite_mul_iff`: which products are finite
-/

namespace Stepwise.Binary64

open Float.Model UnpackedFloat

/-- The middle between the greatest float, `(2 ^ 53 - 1) * 2 ^ 971`, and the next number with as
many digits, which is no float. -/
def overflow : ℚ := (2 ^ 53 - 1 / 2) * 2 ^ (971 : ℤ)

/-! ## Rounding -/

/-- With a greater exponent than that of the greatest float, numbers reach the next power of two. -/
theorem power_le_of_lt_exponent {m : ℕ} {e : ℤ} (gt : 971 < e) (many : 2 ^ 52 ≤ m) :
    (2 ^ 53 * 2 ^ (971 : ℤ) : ℚ) ≤ m * 2 ^ e := by
  have many' : (2 ^ 52 : ℚ) ≤ m := by exact_mod_cast many
  calc (2 ^ 53 * 2 ^ (971 : ℤ) : ℚ) = 2 ^ 52 * (2 ^ (971 : ℤ) * 2) := by ring
    _ = 2 ^ 52 * 2 ^ (971 + 1 : ℤ) := by rw [zpow_add_one₀ two_ne_zero]
    _ ≤ m * 2 ^ e := by
      gcongr
      · norm_num
      · omega

/-- The numbers below the power of two after the greatest float are those whose exponent a float can
have. -/
theorem Canonical.lt_iff {m : ℕ} {e : ℤ} (canonical : Canonical m e) :
    (m * 2 ^ e : ℚ) < 2 ^ 53 * 2 ^ (971 : ℤ) ↔ e ≤ 971 := by
  obtain le | gt := le_or_gt e 971
  · have few : (m : ℚ) < 2 ^ 53 := by exact_mod_cast canonical.lt
    refine iff_of_true ?_ le
    calc (m * 2 ^ e : ℚ) < 2 ^ 53 * 2 ^ e := by gcongr
      _ ≤ 2 ^ 53 * 2 ^ (971 : ℤ) := by
        gcongr
        norm_num
  · have reached := power_le_of_lt_exponent gt (canonical.le_of_ne (by omega))
    exact iff_of_false reached.not_gt gt.not_ge

/-- Rounding reaches that power of two exactly from the middle before it on: the greatest float has
an odd mantissa. -/
theorem Cut.rounded_lt_iff {x : ℚ} {em : ExtendedMantissa} {e : ℤ} (cut : Cut x em e) :
    (em.roundedMantissa * 2 ^ e : ℚ) < 2 ^ 53 * 2 ^ (971 : ℤ) ↔ x < overflow := by
  have greatest : Canonical (2 ^ 53 - 1) 971 := ⟨by norm_num, by norm_num, by norm_num⟩
  have odd : ¬ (2 ^ 53 - 1) % 2 = 0 := by norm_num
  have last : ((2 ^ 53 - 1 : ℕ) : ℚ) + 1 = 2 ^ 53 := by norm_num
  have middle : ((2 ^ 53 - 1 : ℕ) : ℚ) + 1 / 2 = 2 ^ 53 - 1 / 2 := by norm_num
  obtain ⟨canonical, same⟩ := cut.carried
  have onGrid : OnGrid (em.roundedMantissa * 2 ^ e) :=
    ⟨.positive, _, _, canonical.lt, canonical.minExponent_le, same.symm⟩
  have next := onGrid.abs_lt_succ_iff greatest
  rw [abs_of_nonneg (by positivity), last] at next
  have rounds := cut.rounded_le_iff greatest
  rw [middle, or_iff_left fun tie => odd tie.1] at rounds
  exact next.trans rounds

/-- Packing what was rounded gives a float unless the number reaches the middle. -/
theorem isFinite_pack_roundWithAccuracy {s : Sign} {x : ℚ} {m : ℕ} {e : ℤ} {accuracy : Accuracy}
    (approx : Approximates (.ofMantissaAndAccuracy m accuracy) (x / 2 ^ e))
    (fine : e ≤ max (m.log2 + 1 + e - 53) (-1074)) :
    (pack (roundWithAccuracy .binary64 s m e accuracy)).unpack.isFinite = true ↔ x < overflow := by
  have cut := cut_shiftToTargetExponent approx fine
  rw [roundWithAccuracy]
  generalize shiftToTargetExponent .binary64 m e accuracy = first at cut
  obtain ⟨em, e₁⟩ := first
  dsimp only at cut ⊢
  obtain ⟨canonical, same⟩ := cut.carried
  generalize shiftToTargetExponent .binary64 em.roundedMantissa e₁ .exact = last at canonical same
  obtain ⟨em', e'⟩ := last
  dsimp only at canonical same ⊢
  rw [← cut.rounded_lt_iff, ← same]
  split
  next zero =>
    rw [unpack_pack_zero, zero]
    refine iff_of_true rfl ?_
    rw [Nat.cast_zero, zero_mul]
    positivity
  next nonzero =>
    rw [unpack_pack_finite canonical, canonical.lt_iff]
    by_cases fits : e' ≤ 971
    · simp [fits, UnpackedFloat.isFinite]
    · simp [fits, UnpackedFloat.isFinite]

/-! ## Products -/

theorem rational_mul_rational {s t : Sign} {m n : ℕ} {e f : ℤ} {pos : 0 < m} {pos' : 0 < n} :
    |rational (.finite s m e pos) * rational (.finite t n f pos')| =
      (m * n : ℕ) * 2 ^ (e + f) := by
  rw [rational, rational, abs_mul, abs_signed s (magnitude_pos pos).le,
    abs_signed t (magnitude_pos pos').le, zpow_add₀ two_ne_zero]
  push_cast
  ring

/-- A product of floats is finite exactly if its magnitude stays below the middle. -/
theorem isFinite_mul_iff {x y : Float} (first : x.isFinite = true) (second : y.isFinite = true) :
    (x * y).isFinite = true ↔ |value x * value y| < overflow := by
  -- A factor that is zero makes the product zero, whatever the sign.
  have vanishes {u : Float.Model} {q : ℚ} (zero : ∃ s, u = pack (.zero s)) (same : q = 0) :
      u.unpack.isFinite = true ↔ |q| < overflow := by
    obtain ⟨s, rfl⟩ := zero
    rw [unpack_pack_zero, same, abs_zero, overflow]
    exact iff_of_true rfl (by norm_num)
  change (pack (x.toModel.unpack.mul .binary64 y.toModel.unpack)).unpack.isFinite = true ↔
    |rational x.toModel.unpack * rational y.toModel.unpack| < overflow
  obtain ⟨s, parts⟩ | ⟨s, m, e, pos, parts⟩ := unpack_of_isFinite first
  · rw [parts]
    refine vanishes ?_ (by rw [rational_zero, zero_mul])
    obtain ⟨t, parts'⟩ | ⟨t, n, f, pos', parts'⟩ := unpack_of_isFinite second
    all_goals exact ⟨_, by rw [parts']; rfl⟩
  · obtain ⟨t, parts'⟩ | ⟨t, n, f, pos', parts'⟩ := unpack_of_isFinite second
    · rw [parts, parts']
      exact vanishes ⟨_, rfl⟩ (by rw [rational_zero, mul_zero])
    · rw [parts, parts', rational_mul_rational]
      have exact : ((m * n : ℕ) * 2 ^ (e + f) / 2 ^ (e + f) : ℚ) = (m * n : ℕ) := by
        field_simp
      refine isFinite_pack_roundWithAccuracy ?_ (fine_mul (canonical_of_unpack parts).1
        (canonical_of_unpack parts').1 pos pos')
      rw [exact]
      exact .exact _

end Stepwise.Binary64
