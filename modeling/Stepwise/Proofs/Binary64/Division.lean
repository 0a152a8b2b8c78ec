import Stepwise.Proofs.Binary64.Arithmetic

/-!
# Quotients of floats

- `approximates_divCore`, `fine_divCore`: what is known of a quotient before it is rounded
- `computes_div`: what the quotient of finite floats gives
-/

namespace Stepwise.Binary64

open Float.Model UnpackedFloat

/-- The remainder of a division tells on which side of the middle the quotient is. -/
theorem approximates_div (n : ℕ) {d : ℕ} (pos : 0 < d) :
    Approximates (.ofMantissaAndAccuracy (n / d) (accuracyOfFraction (n % d) d)) (n / d : ℚ) := by
  have divisor : (0 : ℚ) < d := by exact_mod_cast pos
  have division : (n / d : ℚ) = (n / d : ℕ) + (n % d : ℕ) / d := by
    field_simp
    exact_mod_cast (Nat.div_add_mod n d).symm
  have less : ((n % d : ℕ) : ℚ) < d := by exact_mod_cast Nat.mod_lt n pos
  generalize n / d = q at division
  generalize n % d = r at division less
  rw [division, accuracyOfFraction]
  obtain rfl | some := eq_or_ne r 0
  · rw [if_pos rfl, Nat.cast_zero, zero_div, add_zero]
    exact .exact q
  · have rest : (0 : ℚ) < r := by exact_mod_cast Nat.pos_of_ne_zero some
    have middle : compare (2 * r) d = compare (q + r / d : ℚ) (q + 1 / 2) := by
      obtain lt | eq | gt := lt_trichotomy (2 * r) d
      · have below : (2 * r : ℚ) < d := by exact_mod_cast lt
        rw [compare_lt_iff_lt.2 lt, compare_lt_iff_lt.2]
        rw [add_lt_add_iff_left, div_lt_div_iff₀ divisor two_pos]
        linarith
      · have equal : (2 * r : ℚ) = d := by exact_mod_cast eq
        rw [compare_eq_iff_eq.2 eq, compare_eq_iff_eq.2]
        rw [add_right_inj, div_eq_div_iff divisor.ne' two_ne_zero]
        linarith
      · have above : (d : ℚ) < 2 * r := by exact_mod_cast gt
        rw [compare_gt_iff_gt.2 gt, compare_gt_iff_gt.2]
        rw [add_lt_add_iff_left, div_lt_div_iff₀ two_pos divisor]
        linarith
    rw [if_neg some, middle]
    have mantissa (order : Ordering) :
        (ExtendedMantissa.ofMantissaAndAccuracy q (.inexact order)).mantissa = q ∧
        (ExtendedMantissa.ofMantissaAndAccuracy q (.inexact order)).accuracy = .inexact order := by
      cases order <;> exact ⟨rfl, rfl⟩
    refine .between ?_ ?_ ?_
    all_goals rw [(mantissa _).1]
    · exact lt_add_of_pos_right _ (by positivity)
    · exact add_lt_add_right ((div_lt_one divisor).2 less) _
    · rw [(mantissa _).2]

/-- The quotient of two mantissas is taken with enough digits. -/
theorem fine_divCore {m n : ℕ} {e f : ℤ} (pos : 0 < m) (pos' : 0 < n) :
    let parts := divCore .binary64 m e n f
    parts.2.1 ≤ max (parts.1.log2 + 1 + parts.2.1 - 53) (-1074) := by
  have target (t : ℤ) : Format.binary64.targetExponent t = max (t - 53) (-1074) := rfl
  rw [divCore]
  dsimp only
  rw [target, totalExponent, totalExponent]
  generalize chosen : min (e - f) _ = g
  obtain ⟨k, amount⟩ : ∃ k : ℕ, e - f - g = k := ⟨(e - f - g).toNat, by omega⟩
  rw [amount, Int.toNat_natCast]
  -- A quotient that may be zero is taken at the least place.
  by_cases short : m.log2 + k ≤ n.log2
  · omega
  · have many : 2 ^ (m.log2 + k - n.log2 - 1) ≤ (m <<< k) / n := by
      rw [Nat.le_div_iff_mul_le pos']
      calc 2 ^ (m.log2 + k - n.log2 - 1) * n
          ≤ 2 ^ (m.log2 + k - n.log2 - 1) * 2 ^ (n.log2 + 1) :=
            Nat.mul_le_mul_left _ Nat.lt_log2_self.le
        _ = 2 ^ (m <<< k).log2 := by
            rw [← pow_add, log2_shiftLeft pos]
            congr 1
            omega
        _ ≤ m <<< k := Nat.log2_self_le (by rw [Nat.shiftLeft_eq]; positivity)
    have digits := (Nat.le_log2 (Nat.one_le_iff_ne_zero.1 (Nat.one_le_two_pow.trans many))).2 many
    omega

/-- The parts that division goes on with tell what the quotient is. -/
theorem approximates_divCore (m : ℕ) {n : ℕ} (e f : ℤ) (pos : 0 < n) :
    let parts := divCore .binary64 m e n f
    Approximates (.ofMantissaAndAccuracy parts.1 parts.2.2)
      (m * 2 ^ e / (n * 2 ^ f) / 2 ^ parts.2.1) := by
  rw [divCore]
  dsimp only
  generalize chosen : min (e - f) _ = g
  obtain ⟨k, amount⟩ : ∃ k : ℕ, e - f - g = k := ⟨(e - f - g).toNat, by omega⟩
  have shifted : (m * 2 ^ e / (n * 2 ^ f) / 2 ^ g : ℚ) = (m <<< k : ℕ) / n := by
    have exponent : e = f + g + k := by omega
    have divisor : (n : ℚ) ≠ 0 := by exact_mod_cast pos.ne'
    rw [exponent, zpow_add₀ two_ne_zero, zpow_add₀ two_ne_zero, zpow_natCast, Nat.shiftLeft_eq]
    push_cast
    field_simp
  rw [amount, Int.toNat_natCast, shifted]
  exact approximates_div _ pos

theorem signed_div (s t : Sign) (x y : ℚ) : signed (s / t) (x / y) = signed s x / signed t y := by
  cases s <;> cases t
  · exact (neg_div_neg_eq x y).symm
  · exact (neg_div y x).symm
  · exact (div_neg x).symm
  · rfl

theorem rational_div_rational {s t : Sign} {m n : ℕ} {e f : ℤ} {pos : 0 < m} {pos' : 0 < n} :
    rational (.finite s m e pos) / rational (.finite t n f pos') =
      signed (s / t) (m * 2 ^ e / (n * 2 ^ f)) :=
  (signed_div s t _ _).symm

theorem roundsTo_div {u v : UnpackedFloat} (first : IsRounded u) (second : IsRounded v)
    (nonzero : rational v ≠ 0) : RoundsTo (rational u / rational v) (u.div .binary64 v) := by
  cases v with
  | zero t => exact absurd (rational_zero t) nonzero
  | infinity | notANumber => cases second
  | finite t n f pos' =>
    cases u with
    | zero s => exact .of_eq rfl (zero_div _).symm
    | infinity | notANumber => cases first
    | finite s m e pos =>
      rw [rational_div_rational]
      exact roundsTo_roundWithAccuracy (approximates_divCore m e f pos') (fine_divCore pos pos')

theorem computes_div {x y : Float} (first : x.isFinite = true) (second : y.isFinite = true)
    (nonzero : value y ≠ 0) : Computes (value x / value y) (x / y) := by
  have rounds := roundsTo_div (isRounded_of_isFinite first) (isRounded_of_isFinite second) nonzero
  exact computes_of_roundsTo rounds rfl

end Stepwise.Binary64
