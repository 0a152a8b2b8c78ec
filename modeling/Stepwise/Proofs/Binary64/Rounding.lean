import Stepwise.Proofs.Binary64.Order

/-!
# Rounding to the nearest

A number is rounded to the nearest one that a float could hold, were there no greatest exponent, and
to the even one of two neighbours that are equally near.

- `OnGrid`: the numbers with few enough digits
- `Approximates`: what is known of a number from the digits that are kept
- `RoundsTo`: what is asked of rounding
- `roundsTo_roundWithAccuracy`, `roundsTo_normalize`: rounding does it
-/

namespace Stepwise.Binary64

open Float.Model UnpackedFloat

/-! ## Digits that are cut off -/

/-- What an extended mantissa tells of the number that it was cut from: it is the mantissa, or it
lies between the mantissa and the next, and it is known on which side of the middle. -/
inductive Approximates : ExtendedMantissa → ℚ → Prop where
  | exact (m : ℕ) : Approximates ⟨m, false, false⟩ m
  | between {em : ExtendedMantissa} {x : ℚ} (above : em.mantissa < x) (below : x < em.mantissa + 1)
    (half : em.accuracy = .inexact (compare x (em.mantissa + 1 / 2))) : Approximates em x

theorem Approximates.shiftRightOne {em : ExtendedMantissa} {x : ℚ} (approx : Approximates em x) :
    Approximates em.shiftRightOne (x / 2) := by
  cases approx with
  | exact m =>
    obtain ⟨k, rfl | rfl⟩ := Nat.even_or_odd' m
    · have half : ((2 * k : ℕ) : ℚ) / 2 = k := by push_cast; ring
      rw [half, ExtendedMantissa.shiftRightOne]
      simpa using .exact k
    · have shifted : ExtendedMantissa.shiftRightOne ⟨2 * k + 1, false, false⟩ =
          ⟨k, true, false⟩ := by
        simp [ExtendedMantissa.shiftRightOne, Nat.mul_add_div]
      have middle : ((2 * k + 1 : ℕ) : ℚ) / 2 = k + 1 / 2 := by push_cast; ring
      rw [shifted, middle]
      refine .between (by norm_num) (by norm_num) ?_
      rw [compare_eq_iff_eq.2 rfl]
      rfl
  | between above below half =>
    obtain ⟨m, roundBit, stickyBit⟩ := em
    -- Some digit behind the mantissa is there, so the next mantissa is inexact in the lower half of
    -- its interval if this one is even, and in the upper half if it is odd.
    have inexact : (roundBit || stickyBit) = true := by
      cases roundBit <;> cases stickyBit
      · cases half
      all_goals rfl
    dsimp only at above below
    obtain ⟨k, rfl | rfl⟩ := Nat.even_or_odd' m
    · have shifted : ExtendedMantissa.shiftRightOne ⟨2 * k, roundBit, stickyBit⟩ =
          ⟨k, false, true⟩ := by
        simp [ExtendedMantissa.shiftRightOne, inexact]
      push_cast at above below
      rw [shifted]
      refine .between (by dsimp only; linarith) (by dsimp only; linarith) ?_
      rw [compare_lt_iff_lt.2 (by dsimp only; linarith)]
      rfl
    · have shifted : ExtendedMantissa.shiftRightOne ⟨2 * k + 1, roundBit, stickyBit⟩ =
          ⟨k, true, true⟩ := by
        simp [ExtendedMantissa.shiftRightOne, inexact, Nat.mul_add_div]
      push_cast at above below
      rw [shifted]
      refine .between (by dsimp only; linarith) (by dsimp only; linarith) ?_
      rw [compare_gt_iff_gt.2 (by dsimp only; linarith)]
      rfl

theorem Approximates.shiftRight {em : ExtendedMantissa} {x : ℚ} (approx : Approximates em x)
    (n : ℕ) : Approximates (em >>> n) (x / 2 ^ n) := by
  induction n with
  | zero =>
    rw [pow_zero, div_one]
    exact approx
  | succ n ih =>
    have halved : x / 2 ^ (n + 1) = x / 2 ^ n / 2 := by rw [pow_succ]; field_simp
    rw [halved]
    exact ih.shiftRightOne

theorem mantissa_shiftRight (em : ExtendedMantissa) (n : ℕ) :
    (em >>> n).mantissa = em.mantissa / 2 ^ n := by
  induction n with
  | zero => exact (Nat.div_one _).symm
  | succ n ih =>
    change (em >>> n).mantissa / 2 = _
    rw [ih, Nat.div_div_eq_div_mul, pow_succ]

/-- The mantissas before and after a number, of which it is rounded to one. -/
theorem Approximates.bounds {em : ExtendedMantissa} {x : ℚ} (approx : Approximates em x) :
    (em.roundedMantissa = em.mantissa ∧ x = em.mantissa) ∨
      (em.mantissa < x ∧ x < em.mantissa + 1 ∧
        em.mantissa ≤ em.roundedMantissa ∧ em.roundedMantissa ≤ em.mantissa + 1) := by
  cases approx with
  | exact m => exact .inl ⟨rfl, rfl⟩
  | between above below half =>
    refine .inr ⟨above, below, ?_⟩
    rw [ExtendedMantissa.roundedMantissa, half]
    cases compare x (em.mantissa + 1 / 2)
    all_goals
      simp only [Accuracy.roundToNearestEven]
      omega

/-- Mantissas are rounded to the nearest whole number. -/
theorem Approximates.nearest {em : ExtendedMantissa} {x : ℚ} (approx : Approximates em x) (k : ℕ) :
    |em.roundedMantissa - x| ≤ |k - x| := by
  cases approx with
  | exact m =>
    change |(m - m : ℚ)| ≤ _
    rw [sub_self, abs_zero]
    exact abs_nonneg _
  | between above below half =>
    rw [ExtendedMantissa.roundedMantissa, half]
    generalize em.mantissa = m at above below
    generalize rounded : Accuracy.roundToNearestEven m _ = r
    have near : |(r - x : ℚ)| ≤ x - m ∧ |(r - x : ℚ)| ≤ m + 1 - x := by
      have down : |(m - x : ℚ)| = x - m := by rw [abs_sub_comm, abs_of_pos (by linarith)]
      have up : |((m + 1 : ℕ) - x : ℚ)| = m + 1 - x := by
        push_cast
        rw [abs_of_pos (by linarith)]
      rw [← rounded]
      obtain lt | eq | gt := lt_trichotomy x (m + 1 / 2)
      · rw [compare_lt_iff_lt.2 lt, Accuracy.roundToNearestEven, down]
        exact ⟨le_rfl, by linarith⟩
      · rw [compare_eq_iff_eq.2 eq, Accuracy.roundToNearestEven]
        obtain even | odd := Nat.mod_two_eq_zero_or_one m
        · rw [even, add_zero, down]
          exact ⟨le_rfl, by linarith⟩
        · rw [odd, up]
          exact ⟨by linarith, le_rfl⟩
      · rw [compare_gt_iff_gt.2 gt, Accuracy.roundToNearestEven, up]
        exact ⟨by linarith, le_rfl⟩
    -- A whole number is not above the mantissa, or not below the next.
    obtain le | gt := le_or_gt k m
    · have : (k : ℚ) ≤ m := by exact_mod_cast le
      exact near.1.trans ((neg_le_abs _).trans' (by linarith))
    · have : (m + 1 : ℚ) ≤ k := by exact_mod_cast gt
      exact near.2.trans ((le_abs_self _).trans' (by linarith))

/-- What lies below the middle between a mantissa and the next is not rounded above the first of
them. The middle itself is rounded to the even one. -/
theorem Approximates.rounded_le_iff {em : ExtendedMantissa} {x : ℚ} {n : ℕ}
    (approx : Approximates em x) :
    em.roundedMantissa ≤ n ↔ x < n + 1 / 2 ∨ n % 2 = 0 ∧ x = n + 1 / 2 := by
  cases approx with
  | exact m =>
    change m ≤ n ↔ _
    constructor
    · intro le
      have : (m : ℚ) ≤ n := by exact_mod_cast le
      exact .inl (by linarith)
    · intro near
      by_contra! large
      have next : (n + 1 : ℚ) ≤ m := by exact_mod_cast large
      obtain lt | ⟨-, eq⟩ := near <;> linarith
  | between above below half =>
    rw [ExtendedMantissa.roundedMantissa, half]
    generalize em.mantissa = m at above below ⊢
    have bounds (order : Ordering) : m ≤ Accuracy.roundToNearestEven m (.inexact order) ∧
        Accuracy.roundToNearestEven m (.inexact order) ≤ m + 1 := by
      cases order <;> simp only [Accuracy.roundToNearestEven] <;> omega
    obtain less | rfl | greater := lt_trichotomy m n
    · have next : (m + 1 : ℚ) ≤ n := by exact_mod_cast less
      exact iff_of_true ((bounds _).2.trans less) (.inl (by linarith))
    · rw [← compare_lt_iff_lt, ← compare_eq_iff_eq (a := x)]
      cases compare x (m + 1 / 2) <;> simp [Accuracy.roundToNearestEven]
    · have next : (n + 1 : ℚ) ≤ m := by exact_mod_cast greater
      refine iff_of_false (greater.trans_le (bounds _).1).not_ge ?_
      rintro (lt | ⟨-, eq⟩) <;> linarith

/-! ## The place where digits are cut off -/

theorem targetExponent_eq (m : ℕ) (e : ℤ) :
    Format.binary64.targetExponent (totalExponent m e) = max (m.log2 + 1 + e - 53) (-1074) := rfl

/-- Digits are cut off at the place `e`: as many are left as there is room for, unless `e` is the
least exponent. -/
structure Cut (x : ℚ) (em : ExtendedMantissa) (e : ℤ) : Prop extends Canonical em.mantissa e where
  approximates : Approximates em (x / 2 ^ e)

theorem cut_shiftToTargetExponent {x : ℚ} {m : ℕ} {e : ℤ} {accuracy : Accuracy}
    (approx : Approximates (.ofMantissaAndAccuracy m accuracy) (x / 2 ^ e))
    (fine : e ≤ max (m.log2 + 1 + e - 53) (-1074)) :
    let shifted := shiftToTargetExponent .binary64 m e accuracy
    Cut x shifted.1 shifted.2 := by
  rw [shiftToTargetExponent, targetExponent_eq, shiftToExponent]
  dsimp only
  obtain ⟨n, target⟩ := Int.le.dest fine
  have amount : (max (m.log2 + 1 + e - 53) (-1074) - e).toNat = n := by omega
  have mantissa : (ExtendedMantissa.ofMantissaAndAccuracy m accuracy).mantissa = m := by
    cases accuracy with
    | exact => rfl
    | inexact order => cases order <;> rfl
  rw [amount]
  -- The target is the place of the 53rd digit, or the least place if that one is below it: at most
  -- 53 digits are left, and exactly as many unless the target is the least place.
  refine ⟨⟨?_, by omega, fun ne => ?_⟩, ?_⟩
  · rw [mantissa_shiftRight, mantissa, Nat.div_lt_iff_lt_mul (by positivity), ← pow_add]
    calc m < 2 ^ (m.log2 + 1) := Nat.lt_log2_self
      _ ≤ 2 ^ (53 + n) := Nat.pow_le_pow_right (by decide) (by omega)
  · rw [mantissa_shiftRight, mantissa, Nat.le_div_iff_mul_le (by positivity), ← pow_add]
    have digits : 52 + n = m.log2 := by omega
    rw [digits]
    refine Nat.log2_self_le fun zero => ?_
    rw [zero, Nat.log2_zero] at digits
    omega
  · have scaled : x / 2 ^ (e + n) = x / 2 ^ e / 2 ^ n := by
      rw [zpow_add₀ two_ne_zero, zpow_natCast]
      field_simp
    rw [scaled]
    exact approx.shiftRight n

/-- A multiple of a power of two is one of a lesser power. -/
theorem exists_multiple {n : ℕ} {e f : ℤ} (le : e ≤ f) : ∃ k : ℕ, (n * 2 ^ f : ℚ) = k * 2 ^ e := by
  obtain ⟨d, rfl⟩ := Int.le.dest le
  refine ⟨n * 2 ^ d, ?_⟩
  rw [zpow_add₀ two_ne_zero, zpow_natCast]
  push_cast
  ring

/-- A mantissa of few digits at a lesser exponent makes no greater number than a full one. -/
theorem le_of_finer {m n : ℕ} {e f : ℤ} (few : n ≤ 2 ^ 53) (many : 2 ^ 52 ≤ m) (lt : f < e) :
    (n * 2 ^ f : ℚ) ≤ m * 2 ^ e := by
  have below : (n : ℚ) ≤ 2 ^ 53 := by exact_mod_cast few
  have above : (2 ^ 52 : ℚ) ≤ m := by exact_mod_cast many
  calc (n * 2 ^ f : ℚ) ≤ 2 ^ 53 * 2 ^ (e - 1) := by
        gcongr
        · norm_num
        · omega
    _ = 2 ^ 52 * 2 ^ e := by rw [zpow_sub_one₀ two_ne_zero]; ring
    _ ≤ m * 2 ^ e := by gcongr

theorem half_of_least : (2 : ℚ) ^ (-1075 : ℤ) = 1 / 2 * 2 ^ (-1074 : ℤ) := by
  rw [show (-1075 : ℤ) = -1074 - 1 by rfl, zpow_sub_one₀ two_ne_zero]
  ring

theorem half_of_least_lt {n : ℕ} {e : ℤ} (some : 1 ≤ n) (least : -1074 ≤ e) :
    (2 : ℚ) ^ (-1075 : ℤ) < n * 2 ^ e := by
  have one : (1 : ℚ) ≤ n := mod_cast some
  calc (2 : ℚ) ^ (-1075 : ℤ) < 1 * 2 ^ (-1074 : ℤ) := by
        rw [half_of_least]
        gcongr
        norm_num
    _ ≤ n * 2 ^ e := by
        gcongr
        norm_num

section

variable {x : ℚ} {em : ExtendedMantissa} {e f : ℤ} {n : ℕ}

theorem Cut.mantissa_le_rounded (cut : Cut x em e) : em.mantissa ≤ em.roundedMantissa := by
  obtain ⟨same, -⟩ | ⟨-, -, lower, -⟩ := cut.approximates.bounds
  · exact same.ge
  · exact lower

theorem Cut.rounded_le_succ (cut : Cut x em e) : em.roundedMantissa ≤ em.mantissa + 1 := by
  obtain ⟨same, -⟩ | ⟨-, -, -, upper⟩ := cut.approximates.bounds
  · omega
  · exact upper

/-- What is cut off is less than one unit. -/
theorem Cut.between (cut : Cut x em e) :
    (em.mantissa * 2 ^ e : ℚ) ≤ x ∧ x < (em.mantissa + 1) * 2 ^ e := by
  have unit : (0 : ℚ) < 2 ^ e := by positivity
  rw [← le_div_iff₀ unit, ← div_lt_iff₀ unit]
  obtain ⟨-, exact⟩ | ⟨above, below, -⟩ := cut.approximates.bounds
  · rw [exact]
    exact ⟨le_rfl, lt_add_one _⟩
  · exact ⟨above.le, below⟩

/-- No number with few enough digits is nearer than the rounded one. -/
theorem Cut.nearest (cut : Cut x em e) (few : n < 2 ^ 53) (least : -1074 ≤ f) :
    |(em.roundedMantissa * 2 ^ e : ℚ) - x| ≤ |n * 2 ^ f - x| := by
  have unit : (0 : ℚ) < 2 ^ e := by positivity
  have scaled (k : ℕ) : |(k * 2 ^ e : ℚ) - x| = |k - x / 2 ^ e| * 2 ^ e := by
    rw [← abs_of_pos unit, ← abs_mul, abs_of_pos unit, sub_mul, div_mul_cancel₀ _ unit.ne']
  have nearest (k : ℕ) : |(em.roundedMantissa * 2 ^ e : ℚ) - x| ≤ |k * 2 ^ e - x| := by
    rw [scaled, scaled]
    exact mul_le_mul_of_nonneg_right (cut.approximates.nearest k) unit.le
  -- What reaches below the cut is too short to exceed what is left of it. All else is a multiple
  -- of the unit at the cut.
  obtain finer | coarser := lt_or_ge f e
  · have below := le_of_finer few.le (cut.le_of_ne (by omega)) finer
    have kept := cut.between.1
    calc |(em.roundedMantissa * 2 ^ e : ℚ) - x| ≤ |em.mantissa * 2 ^ e - x| := nearest _
      _ = x - em.mantissa * 2 ^ e := by rw [abs_of_nonpos (by linarith), neg_sub]
      _ ≤ x - n * 2 ^ f := by linarith
      _ ≤ |n * 2 ^ f - x| := by rw [abs_sub_comm]; exact le_abs_self _
  · obtain ⟨k, multiple⟩ := @exists_multiple n e f coarser
    rw [multiple]
    exact nearest k

/-- Rounding goes past a number from the middle between it and the next one on, and at the middle
itself unless that number is even. -/
theorem Cut.rounded_le_iff (cut : Cut x em e) (canonical : Canonical n f) :
    (em.roundedMantissa * 2 ^ e : ℚ) ≤ n * 2 ^ f ↔
      x < (n + 1 / 2) * 2 ^ f ∨ n % 2 = 0 ∧ x = (n + 1 / 2) * 2 ^ f := by
  have unit : (0 : ℚ) < 2 ^ f := by positivity
  obtain ⟨kept, next⟩ := cut.between
  obtain finer | rfl | coarser := lt_trichotomy f e
  · have reached := le_of_finer canonical.lt (cut.le_of_ne (by
      have := canonical.minExponent_le
      omega)) finer
    have rounded : (em.mantissa * 2 ^ e : ℚ) ≤ em.roundedMantissa * 2 ^ e := by
      have := cut.mantissa_le_rounded
      gcongr
    push_cast at reached
    refine iff_of_false (by linarith) ?_
    rintro (lt | ⟨-, eq⟩) <;> linarith
  · rw [mul_le_mul_iff_left₀ unit, Nat.cast_le, cut.approximates.rounded_le_iff,
      div_lt_iff₀ unit, div_eq_iff unit.ne']
  · have many := canonical.le_of_ne (by
      have := cut.minExponent_le
      omega)
    have small := le_of_finer cut.lt many coarser
    have rounded := le_of_finer (cut.rounded_le_succ.trans cut.lt) many coarser
    push_cast at small
    exact iff_of_true rounded (.inl (by linarith))

end

/-- A mantissa that rounding has made one digit too long loses a zero. -/
theorem carry {m : ℕ} {e : ℤ} (le : m ≤ 2 ^ 53) (least : -1074 ≤ e)
    (many : e ≠ -1074 → 2 ^ 52 ≤ m) :
    let shifted := shiftToTargetExponent .binary64 m e .exact
    Canonical shifted.1.mantissa shifted.2 ∧
      (shifted.1.mantissa * 2 ^ shifted.2 : ℚ) = m * 2 ^ e := by
  rw [shiftToTargetExponent, targetExponent_eq, shiftToExponent]
  dsimp only
  rw [mantissa_shiftRight, ExtendedMantissa.ofMantissaAndAccuracy]
  -- Only `2 ^ 53` is too long, and of its digits all but the first are zeros.
  obtain lt | rfl := le.lt_or_eq
  · have digits : m.log2 ≤ 52 := by
      by_cases zero : m = 0
      · rw [zero, Nat.log2_zero]
        omega
      · exact Nat.lt_succ_iff.1 ((Nat.log2_lt zero).2 lt)
    have amount : (max (m.log2 + 1 + e - 53) (-1074) - e).toNat = 0 := by omega
    rw [amount, pow_zero, Nat.div_one, Nat.cast_zero, add_zero]
    exact ⟨⟨lt, least, many⟩, rfl⟩
  · have amount : (max (((2 ^ 53 : ℕ).log2 : ℤ) + 1 + e - 53) (-1074) - e).toNat = 1 := by
      rw [Nat.log2_two_pow]
      omega
    rw [amount]
    refine ⟨⟨by norm_num, by omega, fun _ => by norm_num⟩, ?_⟩
    rw [Nat.cast_one, zpow_add_one₀ two_ne_zero]
    norm_num
    ring

/-- So does the rounded mantissa of a cut. -/
theorem Cut.carried {x : ℚ} {em : ExtendedMantissa} {e : ℤ} (cut : Cut x em e) :
    let shifted := shiftToTargetExponent .binary64 em.roundedMantissa e .exact
    Canonical shifted.1.mantissa shifted.2 ∧
      (shifted.1.mantissa * 2 ^ shifted.2 : ℚ) = em.roundedMantissa * 2 ^ e :=
  carry (cut.rounded_le_succ.trans cut.lt) cut.minExponent_le fun ne =>
    (cut.le_of_ne ne).trans cut.mantissa_le_rounded

/-! ## Rounding -/

/-- The numbers with as many digits as a float, were there no greatest exponent. -/
def OnGrid (g : ℚ) : Prop :=
  ∃ (s : Sign) (n : ℕ) (e : ℤ), n < 2 ^ 53 ∧ -1074 ≤ e ∧ g = signed s (n * 2 ^ e)

/-- What a number may be rounded to: the nearest one with few enough digits, the even one of two
that are equally near. Past a mantissa that is as long as it can be it is rounded from the middle
before the next one on. -/
structure RoundsTo (x : ℚ) (u : UnpackedFloat) : Prop where
  isRounded : IsRounded u
  nearest : ∀ g, OnGrid g → |rational u - x| ≤ |g - x|
  abs_le_iff : ∀ n e, Canonical n e → (|rational u| ≤ n * 2 ^ e ↔
    |x| < (n + 1 / 2) * 2 ^ e ∨ n % 2 = 0 ∧ |x| = (n + 1 / 2) * 2 ^ e)

theorem onGrid_zero : OnGrid 0 := ⟨.positive, 0, 0, by norm_num, by norm_num, by simp [signed]⟩

theorem onGrid_rational {u : UnpackedFloat} (rounded : IsRounded u) : OnGrid (rational u) := by
  cases u with
  | finite s m e pos => exact ⟨s, m, e, rounded.lt, rounded.minExponent_le, rfl⟩
  | zero | infinity | notANumber => exact onGrid_zero

theorem signed_eq_zero_iff {s : Sign} {x : ℚ} : signed s x = 0 ↔ x = 0 := by
  cases s
  · exact neg_eq_zero
  · rfl

theorem abs_signed (s : Sign) {x : ℚ} (nonneg : 0 ≤ x) : |signed s x| = x := by
  cases s
  · rw [signed, abs_neg, abs_of_nonneg nonneg]
  · rw [signed, abs_of_nonneg nonneg]

theorem OnGrid.eq_zero_iff {g : ℚ} (onGrid : OnGrid g) : g = 0 ↔ |g| ≤ 2 ^ (-1075 : ℤ) := by
  obtain ⟨s, n, e, -, least, rfl⟩ := onGrid
  rw [signed_eq_zero_iff, abs_signed s (by positivity)]
  refine ⟨fun zero => zero.trans_le (by positivity), fun small => ?_⟩
  by_contra! nonzero
  have some : 1 ≤ n := Nat.one_le_iff_ne_zero.2 fun none => nonzero (by simp [none])
  exact (small.trans_lt (half_of_least_lt some least)).false

/-- There is no number with as many digits between a mantissa as long as it can be and the next. -/
theorem OnGrid.abs_lt_succ_iff {g : ℚ} {n : ℕ} {e : ℤ} (onGrid : OnGrid g)
    (canonical : Canonical n e) : |g| < (n + 1) * 2 ^ e ↔ |g| ≤ n * 2 ^ e := by
  have unit : (0 : ℚ) < 2 ^ e := by positivity
  refine ⟨fun lt => ?_, fun le => by linarith⟩
  obtain ⟨s, m, f, few, least, rfl⟩ := onGrid
  rw [abs_signed s (by positivity)] at lt ⊢
  obtain finer | coarser := lt_or_ge f e
  · exact le_of_finer few.le (canonical.le_of_ne (by omega)) finer
  · obtain ⟨k, multiple⟩ := @exists_multiple m e f coarser
    rw [multiple] at lt ⊢
    have bounded : k ≤ n := by
      have : (k : ℚ) < (n + 1 : ℕ) := by
        push_cast
        exact lt_of_mul_lt_mul_right lt unit.le
      exact Nat.lt_succ_iff.1 (by exact_mod_cast this)
    gcongr

section

variable {x g : ℚ} {u : UnpackedFloat}

theorem RoundsTo.le_rational (rounds : RoundsTo x u) (onGrid : OnGrid g) (le : g ≤ x) :
    g ≤ rational u := by
  have near := rounds.nearest g onGrid
  rw [abs_sub_comm g, abs_of_nonneg (sub_nonneg.2 le)] at near
  linarith [(abs_le.1 near).1]

theorem RoundsTo.rational_le (rounds : RoundsTo x u) (onGrid : OnGrid g) (le : x ≤ g) :
    rational u ≤ g := by
  have near := rounds.nearest g onGrid
  rw [abs_of_nonneg (sub_nonneg.2 le)] at near
  linarith [(abs_le.1 near).2]

/-- What is not greater than half the least positive float vanishes. -/
theorem RoundsTo.vanishes_iff (rounds : RoundsTo x u) :
    rational u = 0 ↔ |x| ≤ 2 ^ (-1075 : ℤ) := by
  have zero := rounds.abs_le_iff 0 (-1074) ⟨by norm_num, by norm_num, by norm_num⟩
  rw [half_of_least, le_iff_lt_or_eq (a := |x|)]
  simpa using zero

theorem RoundsTo.of_eq (rounded : IsRounded u) (same : rational u = x) : RoundsTo x u where
  isRounded := rounded
  nearest g _ := by
    rw [same, sub_self, abs_zero]
    exact abs_nonneg _
  abs_le_iff n e canonical := by
    have unit : (0 : ℚ) < 2 ^ e := by positivity
    rw [same]
    refine ⟨fun le => .inl (by linarith), fun near => ?_⟩
    have onGrid : OnGrid x := same ▸ onGrid_rational rounded
    refine (onGrid.abs_lt_succ_iff canonical).1 ?_
    obtain lt | ⟨-, eq⟩ := near <;> linarith

/-- It is enough to round the magnitude. -/
theorem Cut.roundsTo {s : Sign} {em : ExtendedMantissa} {e : ℤ} (cut : Cut x em e)
    (rounded : IsRounded u) (same : rational u = signed s (em.roundedMantissa * 2 ^ e)) :
    RoundsTo (signed s x) u := by
  have nonneg : 0 ≤ x := cut.between.1.trans' (by positivity)
  refine ⟨rounded, ?_, fun n f canonical => ?_⟩
  · rintro _ ⟨t, n, f, few, least, rfl⟩
    have near := cut.nearest few least
    have zero := cut.nearest (n := 0) (f := 0) (by norm_num) (by norm_num)
    rw [Nat.cast_zero, zero_mul, zero_sub, abs_neg, abs_of_nonneg nonneg] at zero
    have magnitude_nonneg : (0 : ℚ) ≤ n * 2 ^ f := by positivity
    have signs (y : ℚ) : |signed s y - signed s x| = |y - x| := by
      cases s
      · rw [signed, signed, neg_sub_neg, abs_sub_comm]
      · rfl
    rw [same, signs]
    -- A number with the other sign is no nearer than zero.
    by_cases alike : t = s
    · rw [alike, signs]
      exact near
    · refine zero.trans ?_
      cases s <;> cases t <;> simp only [signed]
      · exact absurd rfl alike
      · exact (le_abs_self _).trans' (by linarith)
      · exact (neg_le_abs _).trans' (by linarith)
      · exact absurd rfl alike
  · rw [same, abs_signed s (by positivity), abs_signed s nonneg]
    exact cut.rounded_le_iff canonical

end

theorem roundsTo_roundWithAccuracy {s : Sign} {x : ℚ} {m : ℕ} {e : ℤ} {accuracy : Accuracy}
    (approx : Approximates (.ofMantissaAndAccuracy m accuracy) (x / 2 ^ e))
    (fine : e ≤ max (m.log2 + 1 + e - 53) (-1074)) :
    RoundsTo (signed s x) (roundWithAccuracy .binary64 s m e accuracy) := by
  have cut := cut_shiftToTargetExponent approx fine
  rw [roundWithAccuracy]
  generalize shiftToTargetExponent .binary64 m e accuracy = first at cut
  obtain ⟨em, e₁⟩ := first
  dsimp only at cut ⊢
  -- Digits are cut off twice, the second time only to make up for a carry.
  obtain ⟨canonical, same⟩ := cut.carried
  generalize shiftToTargetExponent .binary64 em.roundedMantissa e₁ .exact = last at canonical same
  obtain ⟨em', e'⟩ := last
  dsimp only at canonical same ⊢
  split
  next zero =>
    refine cut.roundsTo rfl ?_
    rw [← same, zero]
    cases s <;> simp [signed]
  next nonzero =>
    refine cut.roundsTo canonical ?_
    rw [← same]
    rfl

theorem log2_shiftLeft {m : ℕ} (pos : 0 < m) (k : ℕ) : (m <<< k).log2 = m.log2 + k := by
  induction k with
  | zero => rfl
  | succ k ih =>
    have nonzero : m <<< k ≠ 0 := by
      rw [Nat.shiftLeft_eq]
      positivity
    rw [Nat.shiftLeft_succ, Nat.log2_two_mul nonzero, ih, Nat.add_assoc]

/-- Rounding a number cuts nothing off before the digits are counted. -/
theorem exists_roundWithAccuracy {s : Sign} {m : ℕ} {e : ℤ} (pos : 0 < m) :
    ∃ (n : ℕ) (f : ℤ), UnpackedFloat.round .binary64 s m e =
        roundWithAccuracy .binary64 s n f .exact ∧
      Approximates (.ofMantissaAndAccuracy n .exact) (m * 2 ^ e / 2 ^ f) ∧
      f ≤ max (n.log2 + 1 + f - 53) (-1074) := by
  rw [UnpackedFloat.round, targetExponent_eq, decreaseExponent]
  dsimp only
  generalize amount : (e - max (m.log2 + 1 + e - 53) (-1074)).toNat = k
  have longer := log2_shiftLeft pos k
  have same : (m * 2 ^ e / 2 ^ (e - k) : ℚ) = (m <<< k : ℕ) := by
    rw [Nat.shiftLeft_eq, zpow_sub₀ two_ne_zero, zpow_natCast]
    push_cast
    field_simp
  refine ⟨m <<< k, e - k, rfl, ?_, by omega⟩
  rw [same]
  exact .exact _

theorem roundsTo_round {s : Sign} {m : ℕ} {e : ℤ} (pos : 0 < m) :
    RoundsTo (signed s (m * 2 ^ e)) (UnpackedFloat.round .binary64 s m e) := by
  obtain ⟨n, f, same, approx, fine⟩ := @exists_roundWithAccuracy s m e pos
  rw [same]
  exact roundsTo_roundWithAccuracy approx fine

/-- An integer other than zero has a sign and a magnitude, which is rounded. -/
theorem exists_round {m e : ℤ} {s : Sign} (nonzero : m ≠ 0) :
    ∃ (t : Sign) (n : ℕ), 0 < n ∧ normalize .binary64 m e s = UnpackedFloat.round .binary64 t n e ∧
      (m * 2 ^ e : ℚ) = signed t (n * 2 ^ e) := by
  rw [UnpackedFloat.normalize]
  obtain lt | gt := nonzero.lt_or_gt
  · obtain ⟨n, rfl⟩ := Int.eq_negSucc_of_lt_zero lt
    rw [compare_lt_iff_lt.2 lt]
    refine ⟨.negative, _, by omega, rfl, ?_⟩
    simp only [signed, Int.neg_negSucc, Int.toNat_natCast, Int.cast_negSucc]
    push_cast
    ring
  · obtain ⟨n, rfl⟩ := Int.eq_ofNat_of_zero_le gt.le
    rw [compare_gt_iff_gt.2 gt]
    exact ⟨.positive, n, by omega, rfl, rfl⟩

theorem roundsTo_normalize {m e : ℤ} {s : Sign} :
    RoundsTo (m * 2 ^ e) (normalize .binary64 m e s) := by
  obtain rfl | nonzero := eq_or_ne m 0
  · have zero : normalize .binary64 0 e s = .zero s := rfl
    rw [zero]
    exact .of_eq rfl (by simp)
  · obtain ⟨t, n, pos, rounds, same⟩ := @exists_round m e s nonzero
    rw [rounds, same]
    exact roundsTo_round pos

end Stepwise.Binary64
