import Stepwise.Proofs.Binary64.Correct

/-!
# The floats of decimal numbers

A decimal number is rounded once, however many digits it has and whatever its power of ten is.

- `IsNearest.unique`: only one float without a sign is nearest to a number
- `isNearest_ofScientific`: a decimal number becomes the nearest float
- `unsigned_ofScientific`: and this one has no sign
- `isNearest_ofNat`, `isNearest_ofInt`: so do whole numbers of any size
- `value_ofNat`, `value_ofInt`: those of at most 53 binary digits stay as they are
- `Unsigned.exists_decimal`: every float without a sign is the nearest to some decimal number
-/

namespace Stepwise.Binary64

open Float.Model UnpackedFloat

variable {q : ℚ} {x y z : Float} {u : UnpackedFloat}

/-! ## Floats without a sign -/

/-- Zero without a sign, or a number above it, or the infinity above all. -/
def Unsigned (z : Float) : Prop := z = 0.0 ∨ 0.0 < z

/-- Other than zero, no two finite floats stand for the same number. -/
theorem eq_of_value_eq (first : x.isFinite = true) (second : y.isFinite = true)
    (nonzero : value x ≠ 0) (same : value x = value y) : x = y := by
  refine eq_of_unpack_eq (isNaN_of_isFinite first) ?_
  rw [value] at nonzero
  rw [value, value] at same
  obtain ⟨s, parts⟩ | ⟨s, m, e, pos, parts⟩ := unpack_of_isFinite first
  · rw [parts, rational_zero] at nonzero
    exact absurd rfl nonzero
  · obtain ⟨t, parts'⟩ | ⟨t, n, f, pos', parts'⟩ := unpack_of_isFinite second
    · rw [same, parts', rational_zero] at nonzero
      exact absurd rfl nonzero
    · have magnitude := magnitude_pos (e := e) pos
      rw [parts, parts', rational, rational] at same
      have lengths : |signed s (m * 2 ^ e : ℚ)| = |signed t (n * 2 ^ f)| := by rw [same]
      rw [abs_signed s magnitude.le, abs_signed t (magnitude_pos pos').le] at lengths
      obtain ⟨rfl, rfl⟩ :=
        (canonical_of_unpack parts).1.eq_of_magnitude_eq (canonical_of_unpack parts').1 lengths
      rw [parts, parts']
      cases s <;> cases t <;> simp only [signed] at same
      · rfl
      · linarith
      · linarith
      · rfl

theorem Unsigned.eq_zero_of_value (unsigned : Unsigned z) (finite : z.isFinite = true)
    (zero : value z = 0) : z = 0.0 := by
  refine unsigned.resolve_right fun gt => ?_
  rw [zero_lt_iff finite, zero] at gt
  exact gt.false

/-- Only one float without a sign is nearest to a number. -/
theorem IsNearest.unique (first : IsNearest q x) (second : IsNearest q y) (unsigned : Unsigned x)
    (unsigned' : Unsigned y) : x = y := by
  by_cases inRange : InRange q
  · have finite := first.isFinite_iff.2 inRange
    have finite' := second.isFinite_iff.2 inRange
    have alike : RoundAlike q q := fun _ _ _ _ => Iff.rfl
    have same : value x = value y :=
      alike.rational_eq (first.rounds inRange) (second.rounds inRange) inRange rfl
    by_cases zero : value x = 0
    · rw [unsigned.eq_zero_of_value finite zero,
        unsigned'.eq_zero_of_value finite' (same.symm.trans zero)]
    · exact eq_of_value_eq finite finite' zero same
  · exact eq_of_unpack_eq first.isNaN ((first.parts inRange).trans (second.parts inRange).symm)

theorem Computes.zero_or_pos (computes : Computes q z) (nonneg : 0 ≤ q) :
    (z == 0.0) = true ∨ 0.0 < z := by
  have notBelow : ¬ z < 0.0 :=
    computes.not_lt_of_le isFinite_zero (value_zero.trans_le nonneg)
  exact (sign_cases computes.isNaN).resolve_left notBelow

/-- What is rounded from zero or above has no sign, unless it is made a negative zero. -/
theorem unsigned_of_roundsTo (rounds : RoundsTo q u) (nonneg : 0 ≤ q) (made : z.toModel = pack u)
    (noSign : u ≠ .zero .negative) : Unsigned z := by
  obtain zero | gt := (computes_of_roundsTo rounds made).zero_or_pos nonneg
  · refine .inl ((beq_zero_iff.1 zero).resolve_right fun negative => ?_)
    have parts : (pack u).unpack = .zero .negative := by rw [← made, negative]; rfl
    have rounded := rounds.isRounded
    cases u with
    | zero s =>
      rw [unpack_pack_zero] at parts
      exact noSign parts
    | infinity | notANumber => cases rounded
    | finite s m e pos =>
      rw [unpack_pack_finite rounded] at parts
      split at parts <;> cases parts
  · exact .inr gt

theorem roundWithAccuracy_ne_zero {m : ℕ} {e : ℤ} {accuracy : Accuracy} :
    roundWithAccuracy .binary64 .positive m e accuracy ≠ .zero .negative := by
  rw [roundWithAccuracy]
  dsimp only
  split <;> simp

/-! ## Few digits and a small power of ten -/

theorem value_of_normalize {k : ℤ} {s : Sign} (onGrid : OnGrid k) (inRange : InRange k)
    (made : z.toModel = pack (normalize .binary64 k 0 s)) :
    z.isFinite = true ∧ value z = k := by
  have whole : z.isFinite = true := by
    rw [isFinite_iff, made, isFinite_pack_normalize]
    simpa using inRange
  have computes := computes_of_roundsTo roundsTo_normalize made
  rw [zpow_zero, mul_one] at computes
  exact ⟨whole, computes.value_eq whole onGrid⟩

theorem value_word {n : ℕ} (few : n < 2 ^ 53) :
    n.toUInt64.toFloat.isFinite = true ∧ value n.toUInt64.toFloat = n := by
  have few' : |(n : ℤ)| < 2 ^ 53 := by
    rw [Nat.abs_cast]
    exact_mod_cast few
  have word : n.toUInt64.toNat = n := UInt64.toNat_ofNat_of_lt (few.trans (by decide))
  have made : n.toUInt64.toFloat.toModel =
      pack (UnpackedFloat.normalize .binary64 n.toUInt64.toNat 0 .positive) := rfl
  rw [word] at made
  exact value_of_normalize (onGrid_intCast few') (inRange_intCast few') made

theorem toModel_powerOfTen : ∀ i : Fin Float.exactlyRepresentablePowersOfTen.size,
    Float.exactlyRepresentablePowersOfTen[i].toModel =
      pack (normalize .binary64 ((10 ^ i.val : ℕ) : ℤ) 0 .positive) := by decide +kernel

/-- The powers of ten that are floats. -/
theorem value_powerOfTen {e : ℕ} (stored : e < Float.exactlyRepresentablePowersOfTen.size) :
    Float.exactlyRepresentablePowersOfTen[e].isFinite = true ∧
      value Float.exactlyRepresentablePowersOfTen[e] = 10 ^ e := by
  have few : e ≤ 22 := Nat.le_of_lt_succ stored
  have onGrid : OnGrid ((10 ^ e : ℕ) : ℤ) := by
    -- The power of five in it is short enough for a mantissa.
    refine ⟨.positive, 5 ^ e, e, ?_, by omega, ?_⟩
    · exact (Nat.pow_le_pow_right (by decide) few).trans_lt (by norm_num)
    · rw [signed, zpow_natCast]
      push_cast
      rw [← mul_pow]
      norm_num
  have inRange : InRange ((10 ^ e : ℕ) : ℤ) := by
    refine inRange_of_le_two_pow ?_
    rw [Int.cast_natCast, Nat.abs_cast, Nat.cast_pow, Nat.cast_ofNat]
    calc (10 ^ e : ℚ) ≤ 10 ^ 22 := pow_le_pow_right₀ (by norm_num) few
      _ ≤ 2 ^ 74 := by norm_num
      _ ≤ 2 ^ 1023 := pow_le_pow_right₀ one_le_two (by norm_num)
  obtain ⟨finite, same⟩ := value_of_normalize onGrid inRange (toModel_powerOfTen ⟨e, stored⟩)
  rw [Int.cast_natCast, Nat.cast_pow, Nat.cast_ofNat] at same
  exact ⟨finite, same⟩

/-- Both the digits and the power of ten are floats, so they are multiplied or divided as they
are. -/
theorem isNearest_of_short {m e : ℕ} (short : m < 2 ^ 53 ∧ e ≤ 22) (negative : Bool) :
    IsNearest (m * 10 ^ (if negative then -e else e : ℤ)) (Float.ofScientific m negative e) := by
  have stored : e < Float.exactlyRepresentablePowersOfTen.size := Nat.lt_succ_of_le short.2
  obtain ⟨finite, digits⟩ := value_word short.1
  obtain ⟨finite', power⟩ := value_powerOfTen stored
  rw [Float.ofScientific, dif_pos short]
  cases negative with
  | true =>
    have nonzero : value Float.exactlyRepresentablePowersOfTen[e] ≠ 0 := by
      rw [power]
      positivity
    have quotient := isNearest_div finite finite' nonzero
    rw [digits, power] at quotient
    rw [if_pos rfl, zpow_neg, zpow_natCast, ← div_eq_mul_inv]
    exact quotient
  | false =>
    have product := (computes_mul finite finite').isNearest (isFinite_mul_iff finite finite')
    rw [digits, power] at product
    rw [if_neg Bool.false_ne_true, zpow_natCast]
    exact product

/-! ## All other decimal numbers -/

section

variable {m : ℕ} {k : ℤ}

theorem isNearest_of_round {n : ℕ} {e : ℤ} {accuracy : Accuracy} (nonneg : 0 ≤ q)
    (approx : Approximates (.ofMantissaAndAccuracy n accuracy) (q / 2 ^ e))
    (fine : e ≤ max (n.log2 + 1 + e - 53) (-1074))
    (made : z.toModel = pack (roundWithAccuracy .binary64 .positive n e accuracy)) :
    IsNearest q z ∧ Unsigned z := by
  have rounds : RoundsTo q _ := roundsTo_roundWithAccuracy (s := .positive) approx fine
  refine ⟨(computes_of_roundsTo rounds made).isNearest ?_,
    unsigned_of_roundsTo rounds nonneg made roundWithAccuracy_ne_zero⟩
  rw [isFinite_iff, made, isFinite_pack_roundWithAccuracy approx fine, InRange,
    abs_of_nonneg nonneg]

theorem isNearest_of_small (small : |q| ≤ 2 ^ (-1075 : ℤ))
    (made : z.toModel = pack (.zero .positive)) : IsNearest q z ∧ Unsigned z := by
  have zero : z = 0.0 := by
    cases z
    exact congrArg Float.ofModel made
  rw [zero]
  exact ⟨(isNearest_iff_of_zero isFinite_zero value_zero).2 small, .inl rfl⟩

theorem isNearest_of_great (great : 2 ^ 1024 ≤ q)
    (made : z.toModel = pack (.infinity .positive)) : IsNearest q z ∧ Unsigned z := by
  have nonneg : 0 ≤ q := great.trans' (by positivity)
  have parts : z.toModel.unpack = .infinity .positive := by rw [made, unpack_pack_infinity]
  refine ⟨.infinite (not_inRange_of_two_pow_le (great.trans (le_abs_self q))) ?_, .inr ?_⟩
  · rw [parts, signOf_of_nonneg nonneg]
  · rw [lt_iff_compare, parts, unpack_zero]
    rfl

theorem two_pow_le_decimal (pos : 0 < m) (great : 2 ^ 11 < k) : (2 ^ 1024 : ℚ) ≤ m * 10 ^ k := by
  have one : (1 : ℚ) ≤ m := by exact_mod_cast pos
  calc (2 ^ 1024 : ℚ) ≤ 10 ^ 1024 := pow_le_pow_left₀ (by norm_num) (by norm_num) _
    _ = 10 ^ (1024 : ℤ) := (zpow_natCast _ _).symm
    _ ≤ 10 ^ k := zpow_le_zpow_right₀ (by norm_num) (by omega)
    _ ≤ m * 10 ^ k := le_mul_of_one_le_left (by positivity) one

theorem decimal_le_two_pow (small : k < -(2 ^ 11 + m.log2)) :
    (m * 10 ^ k : ℚ) ≤ 2 ^ (-1075 : ℤ) := by
  obtain ⟨j, rfl⟩ : ∃ j : ℕ, k = -j := ⟨(-k).toNat, by omega⟩
  have few : (m : ℚ) ≤ 2 ^ (m.log2 + 1) := by exact_mod_cast Nat.lt_log2_self.le
  have power : (10 ^ (-j : ℤ) : ℚ) ≤ 2 ^ (-j : ℤ) := by
    rw [zpow_neg, zpow_neg, zpow_natCast, zpow_natCast]
    exact inv_anti₀ (by positivity) (pow_le_pow_left₀ (by norm_num) (by norm_num) _)
  calc (m * 10 ^ (-j : ℤ) : ℚ) ≤ 2 ^ (m.log2 + 1) * 2 ^ (-j : ℤ) := by gcongr
    _ = 2 ^ (m.log2 + 1 - j : ℤ) := by
      rw [sub_eq_add_neg, zpow_add₀ two_ne_zero, ← zpow_natCast]
      norm_cast
    _ ≤ 2 ^ (-1075 : ℤ) := zpow_le_zpow_right₀ one_le_two (by omega)

/-- A whole number is written out, with zeros in front of the binary point for its fraction. -/
theorem isNearest_of_whole {n : ℕ} (pos : 0 < m)
    (made : z.toModel =
      pack (roundWithAccuracy .binary64 .positive ((m <<< 53) * 10 ^ n) (-53) .exact)) :
    IsNearest (m * 10 ^ (n : ℤ)) z ∧ Unsigned z := by
  have exact : (m * 10 ^ (n : ℤ) / 2 ^ (-53 : ℤ) : ℚ) = ((m <<< 53) * 10 ^ n : ℕ) := by
    rw [Nat.shiftLeft_eq, zpow_natCast, zpow_neg, div_inv_eq_mul]
    push_cast
    norm_cast
    ring
  have many : 2 ^ 53 ≤ (m <<< 53) * 10 ^ n := by
    rw [Nat.shiftLeft_eq]
    calc 2 ^ 53 = 1 * 2 ^ 53 * 1 := by norm_num
      _ ≤ m * 2 ^ 53 * 10 ^ n := by
        gcongr
        · exact pos
        · exact Nat.one_le_pow n 10 (by decide)
  have digits := (Nat.le_log2 ((Nat.two_pow_pos 53).trans_le many).ne').2 many
  refine isNearest_of_round (by positivity) ?_ (by omega) made
  rw [exact]
  exact .exact _

theorem isNearest_of_fraction {n : ℕ} (pos : 0 < m) (power : 0 < 10 ^ n)
    (made : z.toModel = pack (UnpackedFloat.div .binary64 (.finite .positive m 0 pos)
      (.finite .positive (10 ^ n) 0 power))) :
    IsNearest (m * 10 ^ (-n : ℤ)) z ∧ Unsigned z := by
  have quotient : (m * 2 ^ (0 : ℤ) / ((10 ^ n : ℕ) * 2 ^ (0 : ℤ)) : ℚ) = m * 10 ^ (-n : ℤ) := by
    rw [zpow_zero, mul_one, mul_one, zpow_neg, zpow_natCast, ← div_eq_mul_inv]
    push_cast
    rfl
  have approx := approximates_divCore m 0 0 power
  rw [quotient] at approx
  exact isNearest_of_round (by positivity) approx (fine_divCore pos power) made

/-- What is too long for floats is rounded once, unless it is beyond them or next to zero by far. -/
theorem isNearest_of_long (made : z.toModel = Float.Model.ofScientific m k) :
    IsNearest (m * 10 ^ k) z ∧ Unsigned z := by
  have exponents : (2 ^ Format.binary64.exponentBits : ℤ) = 2 ^ 11 := rfl
  rw [Float.Model.ofScientific, UnpackedFloat.ofScientific, exponents] at made
  split at made
  next zero =>
    refine isNearest_of_small ?_ made
    rw [zero, Nat.cast_zero, zero_mul, abs_zero]
    positivity
  next nonzero =>
    have pos : 0 < m := Nat.pos_of_ne_zero nonzero
    split at made
    next great => exact isNearest_of_great (two_pow_le_decimal pos great) made
    next =>
      split at made
      next small =>
        refine isNearest_of_small ?_ made
        rw [abs_of_nonneg (by positivity)]
        exact decimal_le_two_pow small
      next =>
        split at made
        next whole =>
          obtain ⟨n, rfl⟩ := Int.eq_ofNat_of_zero_le whole
          exact isNearest_of_whole pos made
        next =>
          obtain ⟨n, rfl⟩ : ∃ n : ℕ, k = -n := ⟨(-k).toNat, by omega⟩
          simp only [neg_neg, Int.toNat_natCast] at made
          exact isNearest_of_fraction pos (by positivity) made

end

/-! ## Decimal numbers -/

variable {m e : ℕ} {negative : Bool}

theorem toModel_ofScientific (long : ¬ (m < 2 ^ 53 ∧ e ≤ 22)) :
    (Float.ofScientific m negative e).toModel =
      Float.Model.ofScientific m (if negative then -e else e : ℤ) := by
  rw [Float.ofScientific, dif_neg long]
  cases negative with
  | true => rw [if_pos rfl, if_pos rfl, Int.negOfNat_eq]; rfl
  | false => rfl

/-- A decimal number becomes the nearest float. -/
theorem isNearest_ofScientific (m : ℕ) (negative : Bool) (e : ℕ) :
    IsNearest (m * 10 ^ (if negative then -e else e : ℤ)) (Float.ofScientific m negative e) := by
  by_cases short : m < 2 ^ 53 ∧ e ≤ 22
  · exact isNearest_of_short short negative
  · exact (isNearest_of_long (toModel_ofScientific short)).1

theorem IsNearest.unsigned (nearest : IsNearest q z) (great : 2 ^ (-1075 : ℤ) < q) :
    Unsigned z := by
  have nonneg : 0 ≤ q := great.le.trans' (by positivity)
  obtain zero | gt := nearest.computes.zero_or_pos nonneg
  · rw [nearest.computes.beq_zero_iff, abs_of_nonneg nonneg] at zero
    exact absurd zero great.not_ge
  · exact .inr gt

theorem zero_scaled : ∀ i : Fin Float.exactlyRepresentablePowersOfTen.size,
    (0 : ℕ).toUInt64.toFloat / Float.exactlyRepresentablePowersOfTen[i] = 0.0 ∧
      (0 : ℕ).toUInt64.toFloat * Float.exactlyRepresentablePowersOfTen[i] = 0.0 := by
  decide +kernel

theorem two_pow_lt_short (pos : 0 < m) (small : e ≤ 22) :
    (2 ^ (-1075 : ℤ) : ℚ) < m * 10 ^ (if negative then -e else e : ℤ) := by
  have one : (1 : ℚ) ≤ m := by exact_mod_cast pos
  have least : -22 ≤ (if negative then -e else e : ℤ) := by split <;> omega
  calc (2 ^ (-1075 : ℤ) : ℚ) < 2 ^ (-88 : ℤ) := zpow_lt_zpow_right₀ one_lt_two (by norm_num)
    _ ≤ 10 ^ (-22 : ℤ) := by norm_num
    _ ≤ 10 ^ (if negative then -e else e : ℤ) := zpow_le_zpow_right₀ (by norm_num) least
    _ ≤ m * 10 ^ (if negative then -e else e : ℤ) := le_mul_of_one_le_left (by positivity) one

theorem unsigned_ofScientific (m : ℕ) (negative : Bool) (e : ℕ) :
    Unsigned (Float.ofScientific m negative e) := by
  by_cases short : m < 2 ^ 53 ∧ e ≤ 22
  · obtain rfl | pos := m.eq_zero_or_pos
    · obtain ⟨quotient, product⟩ := zero_scaled ⟨e, Nat.lt_succ_of_le short.2⟩
      rw [Float.ofScientific, dif_pos short]
      cases negative with
      | true => exact .inl quotient
      | false => exact .inl product
    · exact (isNearest_ofScientific m negative e).unsigned (two_pow_lt_short pos short.2)
  · exact (isNearest_of_long (toModel_ofScientific short)).2

/-- A negative power of two is one of five over one of ten. -/
theorem exists_decimal (m : ℕ) (e : ℤ) : ∃ n k : ℕ, (m * 2 ^ e : ℚ) = n * 10 ^ (-k : ℤ) := by
  obtain ⟨j, rfl | rfl⟩ := e.eq_nat_or_neg
  · refine ⟨m * 2 ^ j, 0, ?_⟩
    rw [Nat.cast_zero, neg_zero, zpow_zero, mul_one, zpow_natCast]
    push_cast
    rfl
  · refine ⟨m * 5 ^ j, j, ?_⟩
    rw [zpow_neg, zpow_neg, zpow_natCast, zpow_natCast, show (10 : ℚ) = 5 * 2 by norm_num, mul_pow]
    push_cast
    field_simp

theorem exists_decimal_of_pos (whole : z.isFinite = true) (positive : 0 < value z) :
    ∃ n k : ℕ, value z = n * 10 ^ (-k : ℤ) := by
  rw [value] at positive ⊢
  obtain ⟨s, parts⟩ | ⟨s, m, e, pos, parts⟩ := unpack_of_isFinite whole
  · rw [parts, rational_zero] at positive
    exact absurd positive (lt_irrefl 0)
  · rw [parts, rational] at positive ⊢
    cases s with
    | positive => exact exists_decimal m e
    | negative => exact absurd (magnitude_pos pos).le (neg_pos.1 positive).not_ge

/-- Every float without a sign is the nearest to some decimal number, infinity to a great one. -/
theorem Unsigned.exists_decimal (unsigned : Unsigned z) :
    ∃ n k : ℕ, IsNearest (n * 10 ^ (-k : ℤ)) z := by
  obtain rfl | positive := unsigned
  · refine ⟨0, 0, (isNearest_iff_of_zero isFinite_zero value_zero).2 ?_⟩
    rw [Nat.cast_zero, zero_mul, abs_zero]
    positivity
  · cases whole : z.isFinite with
    | true =>
      obtain ⟨n, k, same⟩ := exists_decimal_of_pos whole ((zero_lt_iff whole).1 positive)
      exact ⟨n, k, same ▸ isNearest_value whole⟩
    | false =>
      rw [lt_iff_compare, unpack_zero] at positive
      obtain parts | ⟨s, parts⟩ := unpack_of_not_isFinite whole
      · simp [parts, UnpackedFloat.compare] at positive
      · cases s with
        | negative => simp [parts, UnpackedFloat.compare] at positive
        | positive =>
          refine ⟨2 ^ 1024, 0, .infinite (not_inRange_of_two_pow_le ?_) ?_⟩
          · rw [Nat.cast_zero, neg_zero, zpow_zero, mul_one, Nat.abs_cast, Nat.cast_pow,
              Nat.cast_ofNat]
          · rw [parts, signOf_of_nonneg (by positivity)]

/-! ## Whole numbers -/

/-- A natural number of any size becomes the nearest float. -/
theorem isNearest_ofNat (n : ℕ) : IsNearest n (Float.ofNat n) := by
  have nearest := isNearest_ofScientific n false 0
  rw [if_neg Bool.false_ne_true, Nat.cast_zero, zpow_zero, mul_one] at nearest
  exact nearest

/-- So does an integer. -/
theorem isNearest_ofInt (k : ℤ) : IsNearest k (Float.ofInt k) := by
  cases k with
  | ofNat n => exact mod_cast isNearest_ofNat n
  | negSucc n =>
    have nearest := (isNearest_ofNat (n + 1)).neg
    rw [Int.cast_negSucc]
    exact nearest

/-- An integer of few digits is a float. -/
theorem value_ofInt {k : ℤ} (few : |k| < 2 ^ 53) :
    (Float.ofInt k).isFinite = true ∧ value (Float.ofInt k) = k := by
  have nearest := isNearest_ofInt k
  have finite := nearest.isFinite_iff.2 (inRange_intCast few)
  exact ⟨finite, nearest.computes.value_eq finite (onGrid_intCast few)⟩

theorem value_ofNat {n : ℕ} (few : n < 2 ^ 53) :
    (Float.ofNat n).isFinite = true ∧ value (Float.ofNat n) = n := by
  have few' : |(n : ℤ)| < 2 ^ 53 := by
    rw [Nat.abs_cast]
    exact_mod_cast few
  exact_mod_cast value_ofInt few'

end Stepwise.Binary64
