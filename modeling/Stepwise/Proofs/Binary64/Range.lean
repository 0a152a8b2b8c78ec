import Stepwise.Proofs.Binary64.Division
import Stepwise.Proofs.Binary64.Overflow

/-!
# The range of the operations

Sums, differences and quotients of finite floats are finite exactly if they stay below the middle
between the greatest float and the next power of two.

- `InRange`: the numbers that are rounded to a finite float
- `isFinite_add_iff`, `isFinite_sub_iff`, `isFinite_div_iff`: which results are finite
- `isFinite_of_sub_right`, `isFinite_of_div_left`: what a finite result says of the operands
-/

namespace Stepwise.Binary64

open Float.Model UnpackedFloat

/-- A number that is rounded to a finite float. -/
def InRange (q : ℚ) : Prop := |q| < overflow

instance : DecidablePred InRange := fun q => inferInstanceAs (Decidable (|q| < overflow))

theorem inRange_zero : InRange 0 := by
  rw [InRange, abs_zero, overflow]
  norm_num

/-! ## Rounding -/

theorem isFinite_pack_round {s : Sign} {m : ℕ} {e : ℤ} (pos : 0 < m) :
    (pack (UnpackedFloat.round .binary64 s m e)).unpack.isFinite = true ↔
      InRange (signed s (m * 2 ^ e)) := by
  obtain ⟨n, f, same, approx, fine⟩ := @exists_roundWithAccuracy s m e pos
  rw [same, InRange, abs_signed s (by positivity)]
  exact isFinite_pack_roundWithAccuracy approx fine

theorem isFinite_pack_normalize {m e : ℤ} {s : Sign} :
    (pack (UnpackedFloat.normalize .binary64 m e s)).unpack.isFinite = true ↔
      InRange (m * 2 ^ e) := by
  obtain rfl | nonzero := eq_or_ne m 0
  · rw [Int.cast_zero, zero_mul]
    refine iff_of_true ?_ inRange_zero
    change (pack (.zero s)).unpack.isFinite = true
    rw [unpack_pack_zero]
    rfl
  · obtain ⟨t, n, pos, rounds, same⟩ := @exists_round m e s nonzero
    rw [rounds, same]
    exact isFinite_pack_round pos

section

variable {x y z : Float}

/-- A finite float is in range. -/
theorem inRange_value (finite : x.isFinite = true) : InRange (value x) := by
  rw [value]
  obtain ⟨s, parts⟩ | ⟨s, m, e, pos, parts⟩ := unpack_of_isFinite finite
  · rw [parts]
    exact inRange_zero
  · obtain ⟨canonical, small⟩ := canonical_of_unpack parts
    have few : (m + 1 : ℚ) ≤ 2 ^ 53 := by exact_mod_cast canonical.lt
    rw [parts, rational, InRange, abs_signed s (magnitude_pos pos).le, overflow]
    calc (m * 2 ^ e : ℚ) ≤ (2 ^ 53 - 1) * 2 ^ (971 : ℤ) := by
          gcongr
          · linarith
          · norm_num
      _ < (2 ^ 53 - 1 / 2) * 2 ^ (971 : ℤ) := by
          gcongr
          norm_num

/-- A float is rounded to a finite one. -/
theorem Computes.isFinite_of_value (computes : Computes (value x) z) (finite : x.isFinite = true) :
    z.isFinite = true := by
  obtain ⟨above, below⟩ := computes.between finite finite le_rfl le_rfl
  exact isFinite_of_le_of_le finite finite above below

/-- Half of a finite float is finite. -/
theorem isFinite_half (finite : x.isFinite = true) : (0.5 * x).isFinite = true := by
  have whole := inRange_value finite
  have magnitude := abs_nonneg (value x)
  rw [InRange] at whole
  rw [isFinite_mul_iff (by decide +kernel) finite, value_half, abs_mul, abs_of_pos one_half_pos]
  linarith

/-! ## Sums and differences -/

theorem isFinite_add_iff (first : x.isFinite = true) (second : y.isFinite = true) :
    (x + y).isFinite = true ↔ InRange (value x + value y) := by
  have computes := computes_add first second
  obtain ⟨s, parts⟩ | ⟨s, m, e, pos, parts⟩ := unpack_of_isFinite first
  · have zero : value x = 0 := by rw [value, parts, rational_zero]
    rw [zero, zero_add] at computes ⊢
    exact iff_of_true (computes.isFinite_of_value second) (inRange_value second)
  · obtain ⟨t, parts'⟩ | ⟨t, n, f, pos', parts'⟩ := unpack_of_isFinite second
    · have zero : value y = 0 := by rw [value, parts', rational_zero]
      rw [zero, add_zero] at computes ⊢
      exact iff_of_true (computes.isFinite_of_value first) (inRange_value first)
    · change (pack (x.toModel.unpack.add .binary64 y.toModel.unpack)).unpack.isFinite = true ↔ _
      rw [value, value, parts, parts', rational_add_rational]
      exact isFinite_pack_normalize

theorem neg_of_isFinite (finite : x.isFinite = true) :
    (-x).toModel.unpack = x.toModel.unpack.neg ∧ (-x).isFinite = true ∧ value (-x) = -value x := by
  have unpacked : (-x).toModel.unpack = (pack x.toModel.unpack.neg).unpack := rfl
  rw [isFinite_iff, value, value, unpacked]
  obtain ⟨s, parts⟩ | ⟨s, m, e, pos, parts⟩ := unpack_of_isFinite finite
  · rw [parts, UnpackedFloat.neg, unpack_pack_zero]
    exact ⟨rfl, rfl, by simp⟩
  · obtain ⟨canonical, small⟩ := canonical_of_unpack parts
    rw [parts, UnpackedFloat.neg, unpack_pack_finite canonical, if_pos small]
    exact ⟨rfl, rfl, rational_neg s _⟩

theorem isFinite_sub_iff (first : x.isFinite = true) (second : y.isFinite = true) :
    (x - y).isFinite = true ↔ InRange (value x - value y) := by
  obtain ⟨parts, finite, negated⟩ := neg_of_isFinite second
  rw [sub_eq_add_neg, ← negated, ← isFinite_add_iff first finite]
  change (pack (x.toModel.unpack.sub .binary64 y.toModel.unpack)).unpack.isFinite = true ↔
    (pack (x.toModel.unpack.add .binary64 (-y).toModel.unpack)).unpack.isFinite = true
  rw [parts, sub_eq_add]

/-- Every number with few enough digits is a multiple of the least positive float. -/
theorem OnGrid.exists_multiple {g : ℚ} (onGrid : OnGrid g) :
    ∃ k : ℤ, g = k * 2 ^ (-1074 : ℤ) := by
  obtain ⟨s, n, e, -, least, rfl⟩ := onGrid
  obtain ⟨k, multiple⟩ := @Binary64.exists_multiple n (-1074) e least
  rw [multiple]
  cases s
  · exact ⟨-k, by simp [signed]⟩
  · exact ⟨k, by simp [signed]⟩

/-- A difference is rounded to zero only between equal floats. -/
theorem value_sub_eq_zero_iff (first : x.isFinite = true) (second : y.isFinite = true)
    (finite : (x - y).isFinite = true) : value (x - y) = 0 ↔ value x = value y := by
  cases computes_sub first second with
  | finite _ rounds =>
    refine rounds.vanishes_iff.trans ?_
    rw [← sub_eq_zero (a := value x)]
    obtain ⟨k, left⟩ := (onGrid_value first).exists_multiple
    obtain ⟨l, right⟩ := (onGrid_value second).exists_multiple
    have unit : (0 : ℚ) < 2 ^ (-1074 : ℤ) := by positivity
    have whole : |((k - l : ℤ) : ℚ)| ≤ 1 / 2 ↔ ((k - l : ℤ) : ℚ) = 0 := by
      refine ⟨fun small => ?_, fun zero => by rw [zero]; norm_num⟩
      have less : |k - l| < 1 := by
        have : (|k - l| : ℚ) < 1 := by
          push_cast at small
          linarith
        exact_mod_cast this
      exact_mod_cast Int.abs_lt_one_iff.1 less
    rw [left, right, ← sub_mul, half_of_least, abs_mul, abs_of_pos unit,
      mul_le_mul_iff_left₀ unit, mul_eq_zero_iff_right unit.ne']
    exact_mod_cast whole
  | above parts | below parts =>
    rw [isFinite_iff, parts] at finite
    cases finite

/-! ## Quotients -/

theorem isFinite_div_iff (first : x.isFinite = true) (second : y.isFinite = true)
    (nonzero : value y ≠ 0) : (x / y).isFinite = true ↔ InRange (value x / value y) := by
  change (pack (x.toModel.unpack.div .binary64 y.toModel.unpack)).unpack.isFinite = true ↔
    InRange (rational x.toModel.unpack / rational y.toModel.unpack)
  obtain ⟨t, parts'⟩ | ⟨t, n, f, pos', parts'⟩ := unpack_of_isFinite second
  · exact absurd (by rw [value, parts', rational_zero]) nonzero
  · obtain ⟨s, parts⟩ | ⟨s, m, e, pos, parts⟩ := unpack_of_isFinite first
    · rw [parts, parts', rational_zero, zero_div]
      refine iff_of_true ?_ inRange_zero
      change (pack (.zero (s / t))).unpack.isFinite = true
      rw [unpack_pack_zero]
      rfl
    · rw [parts, parts', rational_div_rational, InRange, abs_signed _ (by positivity)]
      exact isFinite_pack_roundWithAccuracy (approximates_divCore m e f pos')
        (fine_divCore pos pos')

/-! ## Operands -/

theorem isFinite_of_pack {u : UnpackedFloat} (finite : (pack u).unpack.isFinite = true) :
    u.isFinite = true := by
  by_contra infinite
  rw [isFinite_unpack_pack (Bool.eq_false_of_not_eq_true infinite)] at finite
  cases finite

/-- What is taken away from a number and leaves a finite one is finite. -/
theorem isFinite_of_sub_right (finite : (x - y).isFinite = true) : y.isFinite = true := by
  replace finite : (x.toModel.unpack.sub .binary64 y.toModel.unpack).isFinite = true :=
    isFinite_of_pack finite
  change y.toModel.unpack.isFinite = true
  generalize x.toModel.unpack = u at finite
  generalize y.toModel.unpack = v at finite
  cases v with
  | zero | finite => rfl
  | notANumber => cases u <;> cases finite
  | infinity s =>
    cases u with
    | infinity t => cases s <;> cases t <;> cases finite
    | zero | finite | notANumber => cases finite

/-- A finite quotient has a finite dividend, and a divisor that is a number other than zero. -/
theorem isFinite_of_div (finite : (x / y).isFinite = true) :
    x.isFinite = true ∧ y.isNaN = false ∧ (y.isFinite = true → value y ≠ 0) := by
  replace finite : (x.toModel.unpack.div .binary64 y.toModel.unpack).isFinite = true :=
    isFinite_of_pack finite
  change x.toModel.unpack.isFinite = true ∧ y.toModel.unpack.isNaN = false ∧
    (y.toModel.unpack.isFinite = true → rational y.toModel.unpack ≠ 0)
  generalize x.toModel.unpack = u at finite
  generalize y.toModel.unpack = v at finite
  cases v with
  | zero | notANumber => cases u <;> cases finite
  | infinity =>
    cases u with
    | infinity | notANumber => cases finite
    | zero | finite => exact ⟨rfl, rfl, nofun⟩
  | finite s m e pos =>
    have nonzero : rational (.finite s m e pos) ≠ 0 := by
      rw [rational, Ne, signed_eq_zero_iff]
      exact (magnitude_pos pos).ne'
    cases u with
    | infinity | notANumber => cases finite
    | zero | finite => exact ⟨rfl, rfl, fun _ => nonzero⟩

/-- What is divided by an infinity vanishes. -/
theorem div_infinite (finite : x.isFinite = true) (number : y.isNaN = false)
    (infinite : y.isFinite = false) : (x / y).isFinite = true ∧ value (x / y) = 0 := by
  have quotient : (x / y).toModel.unpack =
      (pack (x.toModel.unpack.div .binary64 y.toModel.unpack)).unpack := rfl
  have vanishes : ∃ t, (x / y).toModel.unpack = .zero t := by
    rw [quotient]
    obtain parts | ⟨s, parts⟩ := unpack_of_not_isFinite infinite
    · change y.toModel.unpack.isNaN = false at number
      rw [parts] at number
      cases number
    · rw [parts]
      obtain ⟨t, parts'⟩ | ⟨t, m, e, pos, parts'⟩ := unpack_of_isFinite finite
      all_goals
        rw [parts']
        exact ⟨_, unpack_pack_zero _⟩
  obtain ⟨t, parts⟩ := vanishes
  rw [isFinite_iff, value, parts]
  exact ⟨rfl, rational_zero t⟩

/-- Where a line crosses zero, computed from a point, the value there and the slope: the quotient
and the difference must be in range, unless the divisor is infinite and the quotient zero. -/
theorem isFinite_sub_div_iff (finite : z.isFinite = true) :
    (z - x / y).isFinite = true ↔ x.isFinite = true ∧ y.isNaN = false ∧ (y.isFinite = true →
      value y ≠ 0 ∧ InRange (value x / value y) ∧ InRange (value z - value (x / y))) := by
  constructor
  · intro difference
    have quotient := isFinite_of_sub_right difference
    obtain ⟨dividend, number, nonzero⟩ := isFinite_of_div quotient
    refine ⟨dividend, number, fun divisor => ⟨nonzero divisor, ?_, ?_⟩⟩
    · exact (isFinite_div_iff dividend divisor (nonzero divisor)).1 quotient
    · exact (isFinite_sub_iff finite quotient).1 difference
  · rintro ⟨dividend, number, inRange⟩
    cases divisor : y.isFinite with
    | true =>
      obtain ⟨nonzero, quotient, difference⟩ := inRange divisor
      have whole := (isFinite_div_iff dividend divisor nonzero).2 quotient
      exact (isFinite_sub_iff finite whole).2 difference
    | false =>
      obtain ⟨whole, zero⟩ := div_infinite dividend number divisor
      rw [isFinite_sub_iff finite whole, zero, sub_zero]
      exact inRange_value finite

end

end Stepwise.Binary64
