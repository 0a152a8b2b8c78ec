import Stepwise.Proofs.Binary64.Nearest
import Stepwise.Proofs.Binary64.Sign

/-!
# Correctly rounded floats

- `IsNearest`: the float nearest to a number, the even one of two, or an infinity beyond the range
- `RoundsTo.abs_sub_le`: the error of rounding, relative to the number
- `RoundAlike`: numbers with no middle between neighbouring floats between them
- `IsNearest.iff_roundAlike`: those, and no others, have the same nearest float
-/

namespace Stepwise.Binary64

open Float.Model UnpackedFloat

variable {p q g x y : ℚ} {z : Float} {u v : UnpackedFloat}

/-! ## Nearest floats -/

/-- The sign of a number; zero counts as positive. -/
def signOf (q : ℚ) : Sign := if q < 0 then .negative else .positive

theorem signOf_of_nonneg (nonneg : 0 ≤ q) : signOf q = .positive := if_neg nonneg.not_gt

theorem signOf_congr (same : SignType.sign x = SignType.sign y) : signOf x = signOf y :=
  if_congr (by rw [← sign_eq_neg_one_iff, same, sign_eq_neg_one_iff]) rfl rfl

/-- A float is the nearest to a number, the even one of two that are equally near, or the infinity
on its side if the number is beyond the range of floats. -/
inductive IsNearest (q : ℚ) (z : Float) : Prop where
  | finite (inRange : InRange q) (finite : z.isFinite = true) (rounds : RoundsTo q z.toModel.unpack)
  | infinite (beyond : ¬ InRange q) (parts : z.toModel.unpack = .infinity (signOf q))

theorem Computes.isNearest (computes : Computes q z) (finite : z.isFinite = true ↔ InRange q) :
    IsNearest q z := by
  have beyond {s : Sign} (parts : z.toModel.unpack = .infinity s) : ¬ InRange q := by
    rw [← finite, isFinite_iff, parts]
    exact Bool.false_ne_true
  cases computes with
  | finite whole rounds => exact .finite (finite.1 whole) whole rounds
  | above parts beyondAll =>
    have positive := beyondAll 0.0 isFinite_zero
    rw [value_zero] at positive
    refine .infinite (beyond parts) ?_
    rw [parts, signOf_of_nonneg positive.le]
  | below parts beyondAll =>
    have negative := beyondAll 0.0 isFinite_zero
    rw [value_zero] at negative
    refine .infinite (beyond parts) ?_
    rw [parts, signOf, if_pos negative]

theorem isNaN_of_infinity {s : Sign} (parts : z.toModel.unpack = .infinity s) :
    z.isNaN = false := by
  change z.toModel.unpack.isNaN = false
  rw [parts]
  rfl

namespace IsNearest

theorem isFinite_iff (nearest : IsNearest q z) : z.isFinite = true ↔ InRange q := by
  cases nearest with
  | finite inRange finite => exact iff_of_true finite inRange
  | infinite beyond parts =>
    rw [Binary64.isFinite_iff, parts]
    exact iff_of_false Bool.false_ne_true beyond

theorem rounds (nearest : IsNearest q z) (inRange : InRange q) : RoundsTo q z.toModel.unpack := by
  cases nearest with
  | finite _ _ rounds => exact rounds
  | infinite beyond => exact absurd inRange beyond

theorem parts (nearest : IsNearest q z) (beyond : ¬ InRange q) :
    z.toModel.unpack = .infinity (signOf q) := by
  cases nearest with
  | finite inRange => exact absurd inRange beyond
  | infinite _ parts => exact parts

/-- No float that is nearest to anything is not a number. -/
theorem isNaN (nearest : IsNearest q z) : z.isNaN = false := by
  cases nearest with
  | finite _ finite => exact isNaN_of_isFinite finite
  | infinite _ parts => exact isNaN_of_infinity parts

theorem computes (nearest : IsNearest q z) : Computes q z := by
  cases nearest with
  | finite _ finite rounds => exact .finite finite rounds
  | infinite beyond parts =>
    have least (y : Float) (finite : y.isFinite = true) : |value y| < |q| :=
      (inRange_value finite).trans_le (not_lt.1 beyond)
    rw [signOf] at parts
    split at parts
    next negative =>
      refine .below parts fun y finite => ?_
      have bound := least y finite
      rw [abs_of_neg negative] at bound
      linarith [neg_abs_le (value y)]
    next nonneg =>
      refine .above parts fun y finite => ?_
      have bound := least y finite
      rw [abs_of_nonneg (not_lt.1 nonneg)] at bound
      exact (le_abs_self _).trans_lt bound

end IsNearest

/-- An infinity on the right side is nearest to what is beyond the range. -/
theorem isNearest_iff_of_infinity (parts : z.toModel.unpack = .infinity (signOf q)) :
    IsNearest q z ↔ ¬ InRange q := by
  refine ⟨fun nearest => ?_, fun beyond => .infinite beyond parts⟩
  rw [← nearest.isFinite_iff, isFinite_iff, parts]
  exact Bool.false_ne_true

theorem isNearest_div {x y : Float} (first : x.isFinite = true) (second : y.isFinite = true)
    (nonzero : value y ≠ 0) : IsNearest (value x / value y) (x / y) :=
  (computes_div first second nonzero).isNearest (isFinite_div_iff first second nonzero)

theorem isNearest_value (finite : z.isFinite = true) : IsNearest (value z) z :=
  .finite (inRange_value finite) finite (.of_eq (isRounded_of_isFinite finite) rfl)

/-- Of what a number is rounded to, only the value matters. -/
theorem RoundsTo.congr (rounds : RoundsTo q u) (rounded : IsRounded v)
    (same : rational u = rational v) : RoundsTo q v :=
  ⟨rounded, same ▸ rounds.nearest, same ▸ rounds.abs_le_iff⟩

theorem RoundsTo.neg (rounds : RoundsTo q u) : RoundsTo (-q) u.neg := by
  obtain ⟨rounded, negated⟩ := rounds.isRounded.neg
  refine ⟨rounded, fun g onGrid => ?_, fun n e canonical => ?_⟩
  · have near := rounds.nearest (-g) onGrid.neg
    rw [← neg_add', abs_neg] at near
    rwa [negated, ← neg_sub', abs_neg, sub_neg_eq_add]
  · rw [negated, abs_neg, abs_neg]
    exact rounds.abs_le_iff n e canonical

/-- The nearest floats of opposite numbers are opposite. -/
theorem IsNearest.neg (nearest : IsNearest q z) : IsNearest (-q) (-z) := by
  have range : InRange (-q) ↔ InRange q := by rw [InRange, InRange, abs_neg]
  cases nearest with
  | finite inRange finite rounds =>
    obtain ⟨parts, finite', -⟩ := neg_of_isFinite finite
    exact .finite (range.2 inRange) finite' (parts ▸ rounds.neg)
  | infinite beyond parts =>
    have unpacked : (-z).toModel.unpack = (pack z.toModel.unpack.neg).unpack := rfl
    refine .infinite (mt range.1 beyond) ?_
    rw [unpacked, parts, UnpackedFloat.neg, unpack_pack_infinity, signOf, signOf]
    obtain negative | rfl | positive := lt_trichotomy q 0
    · rw [if_pos negative, if_neg (neg_pos.2 negative).not_gt]
      rfl
    · exact absurd inRange_zero beyond
    · rw [if_neg positive.not_gt, if_pos (neg_neg_iff_pos.2 positive)]
      rfl

/-! ## Powers of two about the limit -/

theorem overflow_le_two_pow : overflow ≤ 2 ^ 1024 := by
  have split : (2 : ℚ) ^ 1024 = 2 ^ 53 * 2 ^ (971 : ℤ) := by
    rw [← zpow_natCast, ← zpow_natCast, ← zpow_add₀ two_ne_zero]
    rfl
  rw [overflow, split]
  gcongr
  norm_num

theorem two_pow_lt_overflow : (2 ^ 1023 : ℚ) < overflow := by
  have split : (2 : ℚ) ^ 1023 = 2 ^ 52 * 2 ^ (971 : ℤ) := by
    rw [← zpow_natCast, ← zpow_natCast, ← zpow_add₀ two_ne_zero]
    rfl
  rw [overflow, split]
  gcongr
  norm_num

theorem not_inRange_of_two_pow_le (great : 2 ^ 1024 ≤ |q|) : ¬ InRange q :=
  (overflow_le_two_pow.trans great).not_gt

theorem inRange_of_le_two_pow (small : |q| ≤ 2 ^ 1023) : InRange q :=
  small.trans_lt two_pow_lt_overflow

/-! ## The error of rounding -/

theorem onGrid_one : OnGrid 1 := mod_cast onGrid_intCast (k := 1) (by norm_num)

theorem onGrid_intCast_mul_of_le {k e : ℤ} (few : |k| ≤ 2 ^ 53) (least : -1074 ≤ e) :
    OnGrid (k * 2 ^ e) := by
  obtain lt | full := few.lt_or_eq
  · exact onGrid_intCast_mul lt least
  · obtain ⟨l, rfl⟩ : ∃ l, k = 2 * l := by
      obtain same | same := (abs_eq (by positivity)).1 full
      · exact ⟨2 ^ 52, by omega⟩
      · exact ⟨-2 ^ 52, by omega⟩
    have half : |l| < 2 ^ 53 := by
      rw [abs_mul, abs_two] at full
      omega
    rw [Int.cast_mul, Int.cast_ofNat, mul_assoc]
    exact onGrid_two_mul (onGrid_intCast_mul half least)

/-- Above the least numbers there is always a float within half a unit of the last of 53 digits. -/
theorem exists_onGrid_relative (normal : 2 ^ (-1022 : ℤ) ≤ |q|) :
    ∃ g, OnGrid g ∧ |g - q| ≤ 2 ^ (-53 : ℤ) * |q| := by
  have positive : 0 < |q| := normal.trans_lt' (by positivity)
  obtain ⟨e, lower, upper⟩ := exists_mem_Ico_zpow positive one_lt_two
  have least : -1022 ≤ e := by
    have := (zpow_lt_zpow_iff_right₀ one_lt_two).1 (normal.trans_lt upper)
    omega
  -- The last of 53 digits has the place value `2 ^ (e - 52)`.
  have unit : (0 : ℚ) < 2 ^ (e - 52) := by positivity
  generalize scaled : q / 2 ^ (e - 52) = t
  obtain rfl : q = t * 2 ^ (e - 52) := by rw [← scaled, div_mul_cancel₀ _ unit.ne']
  have split (k : ℤ) : (2 : ℚ) ^ (e - 52 + k) = 2 ^ k * 2 ^ (e - 52) := by
    rw [add_comm, zpow_add₀ two_ne_zero]
  have many : 2 ^ 52 ≤ |t| := by
    have first := split 52
    rw [show e - 52 + 52 = e by omega] at first
    rw [abs_mul, abs_of_pos unit, first, mul_le_mul_iff_left₀ unit] at lower
    exact_mod_cast lower
  have few : |t| < 2 ^ 53 := by
    have next := split 53
    rw [show e - 52 + 53 = e + 1 by omega] at next
    rw [abs_mul, abs_of_pos unit, next, mul_lt_mul_iff_left₀ unit] at upper
    exact_mod_cast upper
  have near := abs_sub_round t
  refine ⟨round t * 2 ^ (e - 52), onGrid_intCast_mul_of_le ?_ (by omega), ?_⟩
  · have bound : |(round t : ℚ)| ≤ |t| + 1 / 2 := by
      have := abs_sub_abs_le_abs_sub (round t : ℚ) t
      rw [abs_sub_comm (round t : ℚ)] at this
      linarith
    have less : (|round t| : ℤ) < 2 ^ 53 + 1 := by
      have : (|round t| : ℚ) < 2 ^ 53 + 1 := by linarith
      exact_mod_cast this
    omega
  · have share : (1 / 2 : ℚ) ≤ 2 ^ (-53 : ℤ) * |t| := by
      rw [zpow_neg, ← div_eq_inv_mul, le_div_iff₀ (by positivity)]
      norm_num at many ⊢
      linarith
    rw [← sub_mul, abs_mul, abs_mul, abs_of_pos unit, abs_sub_comm, ← mul_assoc]
    exact mul_le_mul_of_nonneg_right (near.trans share) unit.le

theorem RoundsTo.abs_sub_le (rounds : RoundsTo q u) (normal : 2 ^ (-1022 : ℤ) ≤ |q|) :
    |rational u - q| ≤ 2 ^ (-53 : ℤ) * |q| := by
  obtain ⟨g, onGrid, near⟩ := exists_onGrid_relative normal
  exact (rounds.nearest g onGrid).trans near

/-! ## Numbers with the same nearest float -/

/-- Whether a number is rounded to a mantissa or a lesser one: it lies below the middle between this
and the next, or at it if the mantissa is even. -/
def RoundsDown (q : ℚ) (n : ℕ) (e : ℤ) : Prop :=
  |q| < (n + 1 / 2) * 2 ^ e ∨ n % 2 = 0 ∧ |q| = (n + 1 / 2) * 2 ^ e

/-- Two magnitudes are on the same side of each middle between neighbouring floats. -/
def RoundAlike (x y : ℚ) : Prop :=
  ∀ n e, Canonical n e → e ≤ 971 → (RoundsDown x n e ↔ RoundsDown y n e)

theorem RoundsDown.inRange {n : ℕ} {e : ℤ} (down : RoundsDown q n e) (canonical : Canonical n e)
    (small : e ≤ 971) : InRange q := by
  have unit : (2 : ℚ) ^ e ≤ 2 ^ (971 : ℤ) := zpow_le_zpow_right₀ one_le_two small
  have middle {k : ℕ} (few : n + k < 2 ^ 53) :
      (n + 1 / 2 : ℚ) * 2 ^ e ≤ (2 ^ 53 - k - 1 / 2) * 2 ^ (971 : ℤ) := by
    have room : (n + k + 1 : ℚ) ≤ 2 ^ 53 := by exact_mod_cast few
    have : (0 : ℚ) ≤ n := n.cast_nonneg
    exact mul_le_mul (by linarith) unit (by positivity) (by linarith)
  obtain less | ⟨even, tie⟩ := down
  · have bound := middle (k := 0) canonical.lt
    rw [Nat.cast_zero, sub_zero] at bound
    exact less.trans_le bound
  · have lt := canonical.lt
    have bound := middle (k := 1) (by omega)
    rw [InRange, tie, overflow]
    refine bound.trans_lt ?_
    gcongr
    norm_num

theorem canonical_greatest : Canonical (2 ^ 53 - 1) 971 :=
  ⟨by norm_num, by norm_num, fun _ => by norm_num⟩

theorem inRange_iff_roundsDown : InRange q ↔ RoundsDown q (2 ^ 53 - 1) 971 := by
  have middle : ((2 ^ 53 - 1 : ℕ) + 1 / 2 : ℚ) = 2 ^ 53 - 1 / 2 := by norm_num
  rw [InRange, RoundsDown, overflow, middle]
  exact (or_iff_left fun tie => absurd tie.1 (by norm_num)).symm

theorem RoundAlike.inRange_iff (alike : RoundAlike x y) : InRange x ↔ InRange y := by
  rw [inRange_iff_roundsDown, inRange_iff_roundsDown]
  exact alike _ _ canonical_greatest le_rfl

/-- What a number in range is rounded to has the exponent of a float. -/
theorem RoundsTo.exists_canonical (rounds : RoundsTo q u) (inRange : InRange q) :
    ∃ n e, Canonical n e ∧ e ≤ 971 ∧ |rational u| = n * 2 ^ e := by
  have bound := (rounds.abs_le_iff _ _ canonical_greatest).2 (inRange_iff_roundsDown.1 inRange)
  have rounded := rounds.isRounded
  cases u with
  | zero s => exact ⟨0, -1074, ⟨by norm_num, by norm_num, by norm_num⟩, by norm_num, by simp⟩
  | infinity | notANumber => cases rounded
  | finite s m e pos =>
    have magnitude : |rational (.finite s m e pos)| = m * 2 ^ e := abs_signed s (by positivity)
    refine ⟨m, e, rounded, (rounded : Canonical m e).lt_iff.1 ?_, magnitude⟩
    rw [← magnitude]
    refine bound.trans_lt (mul_lt_mul_of_pos_right ?_ (by positivity))
    norm_num

theorem RoundAlike.symm (alike : RoundAlike x y) : RoundAlike y x :=
  fun n e canonical small => (alike n e canonical small).symm

theorem RoundAlike.abs_rational_le (alike : RoundAlike x y) (first : RoundsTo x u)
    (second : RoundsTo y v) (inRange : InRange x) : |rational v| ≤ |rational u| := by
  obtain ⟨n, e, canonical, small, magnitude⟩ := first.exists_canonical inRange
  have down := (first.abs_le_iff n e canonical).1 magnitude.le
  rw [magnitude]
  exact (second.abs_le_iff n e canonical).2 ((alike n e canonical small).1 down)

/-- The two numbers are rounded to the same, if they have the same sign. -/
theorem RoundAlike.rational_eq (alike : RoundAlike x y) (first : RoundsTo x u)
    (second : RoundsTo y v) (inRange : InRange x)
    (sign : SignType.sign x = SignType.sign y) : rational u = rational v := by
  have magnitude := (alike.symm.abs_rational_le second first (alike.inRange_iff.1 inRange)).antisymm
    (alike.abs_rational_le first second inRange)
  obtain neg | nonneg := lt_or_ge x 0
  · have neg' : y < 0 := by rwa [← sign_eq_neg_one_iff, ← sign, sign_eq_neg_one_iff]
    have below := first.rational_le onGrid_zero neg.le
    have below' := second.rational_le onGrid_zero neg'.le
    rwa [abs_of_nonpos below, abs_of_nonpos below', neg_inj] at magnitude
  · have nonneg' : 0 ≤ y := by
      rw [← not_lt, ← sign_eq_neg_one_iff, ← sign, sign_eq_neg_one_iff, not_lt]
      exact nonneg
    have above := first.le_rational onGrid_zero nonneg
    have above' := second.le_rational onGrid_zero nonneg'
    rwa [abs_of_nonneg above, abs_of_nonneg above'] at magnitude

/-- Every number is rounded to something. -/
theorem exists_roundsTo (q : ℚ) : ∃ u, RoundsTo q u := by
  obtain rfl | nonzero := eq_or_ne q 0
  · exact ⟨.zero .positive, .of_eq rfl rfl⟩
  · have num : 0 < q.num.natAbs := Int.natAbs_pos.2 (Rat.num_ne_zero.2 nonzero)
    have rounds (s : Sign) := roundsTo_roundWithAccuracy (s := s)
      (approximates_divCore q.num.natAbs 0 0 q.den_pos) (fine_divCore num q.den_pos)
    have magnitude : (q.num.natAbs * 2 ^ (0 : ℤ) / (q.den * 2 ^ (0 : ℤ)) : ℚ) = |q| := by
      rw [zpow_zero, mul_one, mul_one, Nat.cast_natAbs, Int.cast_abs]
      conv_rhs => rw [← q.num_div_den]
      rw [abs_div, Nat.abs_cast]
    obtain ⟨s, same⟩ : ∃ s, signed s |q| = q := by
      obtain neg | nonneg := lt_or_ge q 0
      · exact ⟨.negative, by rw [signed, abs_of_neg neg, neg_neg]⟩
      · exact ⟨.positive, by rw [signed, abs_of_nonneg nonneg]⟩
    have found := rounds s
    rw [magnitude, same] at found
    exact ⟨_, found⟩

/-- Zero is nearest to what is not greater than half the least positive float. -/
theorem isNearest_iff_of_zero (finite : z.isFinite = true) (zero : value z = 0) :
    IsNearest q z ↔ |q| ≤ 2 ^ (-1075 : ℤ) := by
  constructor
  · intro nearest
    exact (nearest.rounds (nearest.isFinite_iff.1 finite)).vanishes_iff.1 zero
  · intro small
    obtain ⟨u, rounds⟩ := exists_roundsTo q
    have least : |q| ≤ 1 := small.trans (zpow_le_one_of_nonpos₀ one_le_two (by norm_num))
    have inRange := inRange_of_le_two_pow (least.trans (one_le_pow₀ one_le_two))
    exact .finite inRange finite (rounds.congr (isRounded_of_isFinite finite)
      ((rounds.vanishes_iff.2 small).trans zero.symm))

/-- A float that is nearest to a number is nearest to another one of the same sign exactly if there
is no middle between neighbouring floats between the two. -/
theorem IsNearest.iff_roundAlike (nearest : IsNearest y z)
    (sign : SignType.sign x = SignType.sign y) : IsNearest x z ↔ RoundAlike x y := by
  constructor
  · intro other n e canonical small
    by_cases inRange : InRange y
    · have finite : InRange x := other.isFinite_iff.1 (nearest.isFinite_iff.2 inRange)
      exact ((other.rounds finite).abs_le_iff n e canonical).symm.trans
        ((nearest.rounds inRange).abs_le_iff n e canonical)
    · have beyond : ¬ InRange x := mt (fun finite =>
        nearest.isFinite_iff.1 (other.isFinite_iff.2 finite)) inRange
      exact iff_of_false (fun down => beyond (down.inRange canonical small))
        fun down => inRange (down.inRange canonical small)
  · intro alike
    by_cases inRange : InRange x
    · have inRange' := alike.inRange_iff.1 inRange
      obtain ⟨u, rounds⟩ := exists_roundsTo x
      have rounds' := nearest.rounds inRange'
      have same := alike.rational_eq rounds rounds' inRange sign
      exact .finite inRange (nearest.isFinite_iff.2 inRange') (rounds.congr rounds'.isRounded same)
    · have parts := nearest.parts (mt alike.inRange_iff.2 inRange)
      exact .infinite inRange (parts.trans (by rw [signOf_congr sign]))

end Stepwise.Binary64
