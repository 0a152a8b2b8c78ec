import Stepwise.Proofs.Binary64.Rounding

/-!
# Sums, differences and products of floats

- `Computes`: a float is what a number is rounded to, or an infinity beyond all floats
- `computes_add`, `computes_sub`, `computes_mul`: what the operations on finite floats give
- `Computes.between`, `half_add_between`: results that lie between two floats
-/

namespace Stepwise.Binary64

open Float.Model UnpackedFloat

/-! ## Parts -/

section

variable {u v : UnpackedFloat}

theorem signed_decreaseExponent {s : Sign} {m : ℕ} {e f : ℤ} (le : f ≤ e) :
    signed s (m * 2 ^ e) = (s.apply (decreaseExponent m e f).1 : ℤ) * 2 ^ f := by
  obtain ⟨k, rfl⟩ := Int.le.dest le
  have amount : (f + k - f).toNat = k := by omega
  rw [decreaseExponent, amount, zpow_add₀ two_ne_zero, zpow_natCast]
  cases s
  all_goals
    simp only [signed, Sign.apply, Nat.shiftLeft_eq]
    push_cast
    ring

theorem rational_neg (s : Sign) (x : ℚ) : signed (-s) x = -signed s x := by
  cases s
  · exact (neg_neg x).symm
  · rfl

/-- Sums are computed at the lesser exponent. -/
theorem rational_add_rational {s t : Sign} {m n : ℕ} {e f : ℤ} {pos : 0 < m} {pos' : 0 < n} :
    rational (.finite s m e pos) + rational (.finite t n f pos') =
      ((s.apply (decreaseExponent m e (min e f)).1 +
        t.apply (decreaseExponent n f (min e f)).1 : ℤ) : ℚ) * 2 ^ (min e f) := by
  rw [rational, rational, signed_decreaseExponent (min_le_left e f),
    signed_decreaseExponent (min_le_right e f)]
  push_cast
  ring

theorem roundsTo_add (first : IsRounded u) (second : IsRounded v) :
    RoundsTo (rational u + rational v) (u.add .binary64 v) := by
  match u, v with
  | .zero s, .zero t =>
    have sum : ∃ r, UnpackedFloat.add .binary64 (.zero s) (.zero t) = .zero r := by
      rw [UnpackedFloat.add]
      split <;> exact ⟨_, rfl⟩
    obtain ⟨r, sum⟩ := sum
    rw [sum]
    exact .of_eq rfl (zero_add _).symm
  | .zero s, .finite t n f pos => exact .of_eq second (zero_add _).symm
  | .finite s m e pos, .zero t => exact .of_eq first (add_zero _).symm
  | .finite s m e pos, .finite t n f pos' =>
    rw [rational_add_rational]
    exact roundsTo_normalize

/-- A difference is computed as a sum with what is taken away negated. -/
theorem sub_eq_add (u v : UnpackedFloat) : u.sub .binary64 v = u.add .binary64 v.neg := by
  have apply_neg (s : Sign) (n : ℤ) : (-s).apply n = -s.apply n := by
    cases s
    · exact (neg_neg n).symm
    · rfl
  cases u <;> cases v <;>
    simp [UnpackedFloat.sub, UnpackedFloat.add, UnpackedFloat.neg, apply_neg, Int.sub_eq_add_neg]

theorem IsRounded.neg (rounded : IsRounded v) : IsRounded v.neg ∧ rational v.neg = -rational v := by
  cases v with
  | zero s => exact ⟨rfl, neg_zero.symm⟩
  | finite s m e pos => exact ⟨rounded, rational_neg s _⟩
  | infinity | notANumber => cases rounded

theorem roundsTo_sub (first : IsRounded u) (second : IsRounded v) :
    RoundsTo (rational u - rational v) (u.sub .binary64 v) := by
  obtain ⟨rounded, negated⟩ := second.neg
  rw [sub_eq_add, sub_eq_add_neg, ← negated]
  exact roundsTo_add first rounded

theorem signed_mul (s t : Sign) (x y : ℚ) : signed (s * t) (x * y) = signed s x * signed t y := by
  cases s <;> cases t
  · exact (neg_mul_neg x y).symm
  · exact (neg_mul x y).symm
  · exact (mul_neg x y).symm
  · rfl

/-- The product of two mantissas has enough digits, unless both factors are very small. -/
theorem fine_mul {m n : ℕ} {e f : ℤ} (first : Canonical m e) (second : Canonical n f)
    (pos : 0 < m) (pos' : 0 < n) :
    e + f ≤ max ((m * n).log2 + 1 + (e + f) - 53) (-1074) := by
  by_cases small : e = -1074 ∧ f = -1074
  · omega
  · have many : 2 ^ 52 ≤ m * n := by
      obtain large | large := not_and_or.1 small
      · exact (first.le_of_ne large).trans (Nat.le_mul_of_pos_right m pos')
      · exact (second.le_of_ne large).trans (Nat.le_mul_of_pos_left n pos)
    have digits : 52 ≤ (m * n).log2 := (Nat.le_log2 (Nat.mul_pos pos pos').ne').2 many
    omega

theorem roundsTo_mul (first : IsRounded u) (second : IsRounded v) :
    RoundsTo (rational u * rational v) (u.mul .binary64 v) := by
  match u, v with
  | .zero s, .zero t => exact .of_eq rfl (mul_zero _).symm
  | .zero s, .finite t n f pos => exact .of_eq rfl (zero_mul _).symm
  | .finite s m e pos, .zero t => exact .of_eq rfl (mul_zero _).symm
  | .finite s m e pos, .finite t n f pos' =>
    have product : rational (.finite s m e pos) * rational (.finite t n f pos') =
        signed (s * t) ((m * n : ℕ) * 2 ^ (e + f)) := by
      rw [rational, rational, ← signed_mul, zpow_add₀ two_ne_zero]
      push_cast
      ring_nf
    have exact : ((m * n : ℕ) * 2 ^ (e + f) / 2 ^ (e + f) : ℚ) = (m * n : ℕ) := by
      field_simp
    rw [product]
    refine roundsTo_roundWithAccuracy ?_ (fine_mul first second pos pos')
    rw [exact]
    exact .exact _

end

/-! ## Floats -/

/-- A float is what a number is rounded to, or infinite where the number is beyond all floats. -/
inductive Computes (x : ℚ) (z : Float) : Prop where
  | finite (finite : z.isFinite = true) (rounds : RoundsTo x z.toModel.unpack)
  | above (parts : z.toModel.unpack = .infinity .positive)
    (beyond : ∀ y : Float, y.isFinite = true → value y < x)
  | below (parts : z.toModel.unpack = .infinity .negative)
    (beyond : ∀ y : Float, y.isFinite = true → x < value y)

section

variable {x y z a b : Float}

theorem isFinite_iff : x.isFinite = true ↔ x.toModel.unpack.isFinite = true := Iff.rfl

theorem onGrid_value (finite : x.isFinite = true) : OnGrid (value x) :=
  onGrid_rational (isRounded_of_isFinite finite)

/-- A float is less than a number with as many digits and a greater exponent than any float. -/
theorem abs_value_lt {m : ℕ} {e : ℤ} (canonical : Canonical m e) (large : 971 < e)
    (finite : x.isFinite = true) : |value x| < m * 2 ^ e := by
  have many : 2 ^ 52 ≤ m := canonical.le_of_ne (by omega)
  have pos : (0 : ℚ) < m * 2 ^ e := magnitude_pos (by omega)
  rw [value]
  obtain ⟨s, parts⟩ | ⟨s, n, f, pos', parts⟩ := unpack_of_isFinite finite
  · simpa [parts] using pos
  · obtain ⟨canonical', small⟩ := canonical_of_unpack parts
    have lt := lt_of_exponent_lt canonical' canonical (by omega : f < e)
    rwa [parts, rational, abs_signed s (magnitude_pos pos').le]

theorem computes_of_roundsTo {x : ℚ} {u : UnpackedFloat} (rounds : RoundsTo x u)
    (made : z.toModel = pack u) : Computes x z := by
  have kept (same : (pack u).unpack = u) (finite : u.isFinite = true) : Computes x z := by
    refine .finite ?_ ?_
    · rwa [isFinite_iff, made, same]
    · rwa [made, same]
  have rounded := rounds.isRounded
  cases u with
  | zero s => exact kept (unpack_pack_zero s) rfl
  | infinity | notANumber => cases rounded
  | finite s m e pos =>
    have parts := @unpack_pack_finite s m e pos rounded
    split at parts
    next => exact kept parts rfl
    next large =>
      -- The rounded number is beyond all floats, so `x` is: rounding does not pass a float.
      have beyond (y : Float) (finite : y.isFinite = true) :=
        abs_lt.1 (abs_value_lt rounded (not_le.1 large) finite)
      cases s with
      | positive =>
        refine .above (made ▸ parts) fun y finite => ?_
        by_contra! le
        exact ((rounds.rational_le (onGrid_value finite) le).trans_lt (beyond y finite).2).false
      | negative =>
        refine .below (made ▸ parts) fun y finite => ?_
        by_contra! le
        exact ((beyond y finite).1.trans_le (rounds.le_rational (onGrid_value finite) le)).false

theorem computes_add (first : x.isFinite = true) (second : y.isFinite = true) :
    Computes (value x + value y) (x + y) :=
  computes_of_roundsTo
    (roundsTo_add (isRounded_of_isFinite first) (isRounded_of_isFinite second)) rfl

theorem computes_sub (first : x.isFinite = true) (second : y.isFinite = true) :
    Computes (value x - value y) (x - y) :=
  computes_of_roundsTo
    (roundsTo_sub (isRounded_of_isFinite first) (isRounded_of_isFinite second)) rfl

theorem computes_mul (first : x.isFinite = true) (second : y.isFinite = true) :
    Computes (value x * value y) (x * y) :=
  computes_of_roundsTo
    (roundsTo_mul (isRounded_of_isFinite first) (isRounded_of_isFinite second)) rfl

/-! ## Order -/

theorem le_of_lt (lt : x < y) : x ≤ y := by
  rw [lt_iff_compare] at lt
  rw [le_iff_compare, lt]
  rfl

theorem not_le_infinity (parts : x.toModel.unpack = .infinity .positive)
    (finite : y.isFinite = true) : ¬ x ≤ y := by
  rw [le_iff_compare, parts]
  obtain ⟨s, other⟩ | ⟨s, m, e, pos, other⟩ := unpack_of_isFinite finite
  all_goals simp [other, UnpackedFloat.compare]

theorem not_infinity_le (parts : y.toModel.unpack = .infinity .negative)
    (finite : x.isFinite = true) : ¬ x ≤ y := by
  rw [le_iff_compare, parts]
  obtain ⟨s, other⟩ | ⟨s, m, e, pos, other⟩ := unpack_of_isFinite finite
  all_goals cases s <;> simp [other, UnpackedFloat.compare]

theorem not_le_notANumber (parts : y.toModel.unpack = .notANumber) : ¬ x ≤ y := by
  rw [le_iff_compare, parts]
  cases x.toModel.unpack with
  | infinity s => cases s <;> simp [UnpackedFloat.compare]
  | finite s => cases s <;> simp [UnpackedFloat.compare]
  | zero | notANumber => simp [UnpackedFloat.compare]

theorem not_notANumber_le (parts : x.toModel.unpack = .notANumber) : ¬ x ≤ y := by
  rw [le_iff_compare, parts]
  simp [UnpackedFloat.compare]

/-- What lies between finite floats is finite. -/
theorem isFinite_of_le_of_le (first : a.isFinite = true) (last : b.isFinite = true)
    (above : a ≤ x) (below : x ≤ b) : x.isFinite = true := by
  by_contra infinite
  obtain parts | ⟨s, parts⟩ := unpack_of_not_isFinite (Bool.eq_false_of_not_eq_true infinite)
  · exact not_le_notANumber parts above
  · cases s with
    | positive => exact not_le_infinity parts last below
    | negative => exact not_infinity_le parts first above

/-- Where there is a float that is not less, a number that is not less than a finite one is at least
that. -/
theorem le_of_not_lt (finite : x.isFinite = true) (last : z.isFinite = true) (notLt : ¬ y < x)
    (below : y ≤ z) : x ≤ y := by
  cases whole : y.isFinite with
  | true => rwa [lt_iff whole finite, not_lt, ← le_iff finite whole] at notLt
  | false =>
    obtain parts | ⟨s, parts⟩ := unpack_of_not_isFinite whole
    · exact absurd below (not_notANumber_le parts)
    · cases s with
      | positive => exact absurd below (not_le_infinity parts last)
      | negative =>
        refine absurd ?_ notLt
        rw [lt_iff_compare, parts]
        obtain ⟨t, other⟩ | ⟨t, m, e, pos, other⟩ := unpack_of_isFinite finite
        all_goals
          rw [other]
          rfl

/-- A number between two finite floats is rounded to a float between them. -/
theorem Computes.between {q : ℚ} (computes : Computes q z) (first : a.isFinite = true)
    (last : b.isFinite = true) (above : value a ≤ q) (below : q ≤ value b) : a ≤ z ∧ z ≤ b := by
  cases computes with
  | finite finite rounds =>
    rw [le_iff first finite, le_iff finite last]
    exact ⟨rounds.le_rational (onGrid_value first) above,
      rounds.rational_le (onGrid_value last) below⟩
  | above _ beyond => exact absurd below (beyond b last).not_ge
  | below _ beyond => exact absurd above (beyond a first).not_ge

theorem Computes.not_lt_of_le {q : ℚ} (computes : Computes q z) (first : a.isFinite = true)
    (above : value a ≤ q) : ¬ z < a := by
  cases computes with
  | finite finite rounds =>
    rw [lt_iff finite first, not_lt]
    exact rounds.le_rational (onGrid_value first) above
  | above parts => exact fun lt => not_le_infinity parts first (le_of_lt lt)
  | below _ beyond => exact absurd above (beyond a first).not_ge

theorem Computes.not_gt_of_le {q : ℚ} (computes : Computes q z) (last : b.isFinite = true)
    (below : q ≤ value b) : ¬ b < z := by
  cases computes with
  | finite finite rounds =>
    rw [lt_iff last finite, not_lt]
    exact rounds.rational_le (onGrid_value last) below
  | above _ beyond => exact absurd below (beyond b last).not_ge
  | below parts => exact fun lt => not_infinity_le parts last (le_of_lt lt)

theorem isNaN_of_isFinite (finite : x.isFinite = true) : x.isNaN = false := by
  change x.toModel.unpack.isNaN = false
  obtain ⟨s, parts⟩ | ⟨s, m, e, pos, parts⟩ := unpack_of_isFinite finite
  all_goals
    rw [parts]
    rfl

theorem Computes.isNaN {q : ℚ} (computes : Computes q z) : z.isNaN = false := by
  cases computes with
  | finite finite => exact isNaN_of_isFinite finite
  | above parts | below parts =>
    change z.toModel.unpack.isNaN = false
    rw [parts]
    rfl

theorem onGrid_two_mul {g : ℚ} (onGrid : OnGrid g) : OnGrid (2 * g) := by
  obtain ⟨s, n, e, few, least, rfl⟩ := onGrid
  refine ⟨s, n, e + 1, few, by omega, ?_⟩
  rw [zpow_add_one₀ two_ne_zero]
  cases s <;> simp only [signed] <;> ring

theorem value_half : value 0.5 = 1 / 2 := by
  have parts : (0.5 : Float).toModel.unpack = .finite .positive (2 ^ 52) (-53) (by decide) := by
    rfl
  rw [value, parts, rational_positive]
  norm_num

theorem value_neg_half : value (-0.5) = -(1 / 2) := by
  have parts : (-0.5 : Float).toModel.unpack = .finite .negative (2 ^ 52) (-53) (by decide) := by
    rfl
  rw [value, parts, rational_negative]
  norm_num

/-- Half the sum of two floats lies between them, unless the sum is too great. -/
theorem half_add_between (first : a.isFinite = true) (last : b.isFinite = true) (le : a ≤ b)
    (sum : (a + b).isFinite = true) : a ≤ 0.5 * (a + b) ∧ 0.5 * (a + b) ≤ b := by
  rw [le_iff first last] at le
  have half : Computes (1 / 2 * value (a + b)) (0.5 * (a + b)) := by
    rw [← value_half]
    exact computes_mul (by decide +kernel) sum
  cases computes_add first last with
  | finite _ rounds =>
    -- Twice a float has as many digits as the float, so that the rounded sum does not pass it.
    have above : 2 * value a ≤ value (a + b) :=
      rounds.le_rational (onGrid_two_mul (onGrid_value first)) (by linarith)
    have below : value (a + b) ≤ 2 * value b :=
      rounds.rational_le (onGrid_two_mul (onGrid_value last)) (by linarith)
    exact half.between first last (by linarith) (by linarith)
  | above parts | below parts =>
    rw [isFinite_iff, parts] at sum
    cases sum

end

end Stepwise.Binary64
