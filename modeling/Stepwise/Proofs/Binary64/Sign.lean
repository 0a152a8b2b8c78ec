import Stepwise.Proofs.Binary64.Arithmetic

/-!
# Signs of products and quotients

A product or a quotient has the sign that the signs of its parts give, or none where it is rounded
to zero.

- `Sided`: having a given sign, or none; `sided_mul`, `sided_div`
- `Opposite`: being of opposite signs
- `Computes.beq_zero_iff`, `mul_lt_zero_iff`: when a result is rounded to zero, and when a product
  shows that signs are opposite
-/

namespace Stepwise.Binary64

open Float.Model UnpackedFloat

/-- Zero, not a number, or of the given sign. -/
def Sided (s : Sign) : UnpackedFloat → Prop
  | .finite t _ _ _ => t = s
  | .infinity t => t = s
  | _ => True

theorem sided_roundWithAccuracy {format : Format} {s : Sign} {m : ℕ} {e : ℤ} {accuracy : Accuracy} :
    Sided s (roundWithAccuracy format s m e accuracy) := by
  rw [roundWithAccuracy]
  dsimp only
  split
  · trivial
  · rfl

theorem sided_mul {format : Format} {s t : Sign} {u v : UnpackedFloat} (first : Sided s u)
    (second : Sided t v) : Sided (s * t) (u.mul format v) := by
  cases u with
  | zero | notANumber => cases v <;> trivial
  | infinity q =>
    cases v with
    | zero | notANumber => trivial
    | infinity r | finite r =>
      rw [← show q = s from first, ← show r = t from second]
      rfl
  | finite q m e pos =>
    cases v with
    | zero | notANumber => trivial
    | infinity r =>
      rw [← show q = s from first, ← show r = t from second]
      rfl
    | finite r n f pos' =>
      rw [← show q = s from first, ← show r = t from second]
      exact sided_roundWithAccuracy

/-- The sign of a zero that is divided by shows in the quotient. -/
theorem sided_div {format : Format} {s t : Sign} {u v : UnpackedFloat} (first : Sided s u)
    (second : Sided t v) (nonzero : ∀ r, v ≠ .zero r) : Sided (s / t) (u.div format v) := by
  cases v with
  | zero r => exact absurd rfl (nonzero r)
  | notANumber => cases u <;> trivial
  | infinity r => cases u <;> trivial
  | finite r n f pos =>
    cases u with
    | zero | notANumber => trivial
    | infinity q =>
      rw [← show q = s from first, ← show r = t from second]
      rfl
    | finite q m e pos' =>
      rw [← show q = s from first, ← show r = t from second]
      exact sided_roundWithAccuracy

theorem sided_unpack_packComponents {s : Sign} {exponent : BitVec 11} {mantissa : BitVec 52} :
    Sided s (UnpackedFloat.unpack .binary64 (packComponents .binary64 s exponent mantissa)) := by
  rw [unpack_packComponents]
  split
  · split
    · rfl
    · trivial
  · split
    · split
      · trivial
      · rfl
    · rfl

theorem sided_unpack_pack {s : Sign} {u : UnpackedFloat} (sided : Sided s u) :
    Sided s (pack u).unpack := by
  cases u with
  | notANumber => rw [unpack_pack_notANumber]; trivial
  | infinity t =>
    rw [unpack_pack_infinity]
    exact sided
  | zero t => rw [unpack_pack_zero]; trivial
  | finite t m e pos =>
    rw [← show t = s from sided, unpack_pack, UnpackedFloat.pack]
    dsimp only
    split
    · exact sided_unpack_packComponents
    · split <;> exact sided_unpack_packComponents

/-! ## Floats -/

section

variable {x y z : Float}

theorem unpack_zero : (0.0 : Float).toModel.unpack = .zero .positive := rfl

theorem isFinite_zero : (0.0 : Float).isFinite = true := by decide +kernel

theorem value_zero : value 0.0 = 0 := by rw [value, unpack_zero, rational_zero]

theorem Sided.mul {s t : Sign} (first : Sided s x.toModel.unpack)
    (second : Sided t y.toModel.unpack) : Sided (s * t) (x * y).toModel.unpack :=
  sided_unpack_pack (sided_mul first second)

theorem Sided.div {s t : Sign} (first : Sided s x.toModel.unpack)
    (second : Sided t y.toModel.unpack) (nonzero : ∀ r, y.toModel.unpack ≠ .zero r) :
    Sided (s / t) (x / y).toModel.unpack :=
  sided_unpack_pack (sided_div first second nonzero)

theorem lt_zero_iff (finite : x.isFinite = true) : x < 0.0 ↔ value x < 0 := by
  rw [lt_iff finite isFinite_zero, value_zero]

theorem zero_lt_iff (finite : x.isFinite = true) : 0.0 < x ↔ 0 < value x := by
  rw [lt_iff isFinite_zero finite, value_zero]

theorem sided_positive_iff : Sided .positive x.toModel.unpack ↔ ¬ x < 0.0 := by
  rw [lt_iff_compare, unpack_zero]
  cases x.toModel.unpack with
  | finite s | infinity s => cases s <;> simp [Sided, UnpackedFloat.compare]
  | zero | notANumber => simp [Sided, UnpackedFloat.compare]

theorem sided_negative_iff : Sided .negative x.toModel.unpack ↔ ¬ 0.0 < x := by
  rw [lt_iff_compare, unpack_zero]
  cases x.toModel.unpack with
  | finite s | infinity s => cases s <;> simp [Sided, UnpackedFloat.compare]
  | zero | notANumber => simp [Sided, UnpackedFloat.compare]

/-- A number is less than zero, zero, or greater. -/
theorem sign_cases (number : x.isNaN = false) : x < 0.0 ∨ (x == 0.0) = true ∨ 0.0 < x := by
  change x.toModel.unpack.isNaN = false at number
  rw [lt_iff_compare, beq_iff_compare, lt_iff_compare, unpack_zero]
  cases parts : x.toModel.unpack with
  | finite s | infinity s => cases s <;> simp [UnpackedFloat.compare]
  | zero => simp [UnpackedFloat.compare]
  | notANumber =>
    rw [parts] at number
    cases number

theorem unpack_of_beq_zero (zero : (x == 0.0) = true) : ∃ s, x.toModel.unpack = .zero s := by
  rw [beq_iff_compare, unpack_zero] at zero
  cases parts : x.toModel.unpack with
  | zero s => exact ⟨s, rfl⟩
  | finite s | infinity s => cases s <;> simp [parts, UnpackedFloat.compare] at zero
  | notANumber => simp [parts, UnpackedFloat.compare] at zero

/-- The zeros are equal to each other and to nothing else. -/
theorem beq_zero_iff : (x == 0.0) = true ↔ x = 0.0 ∨ x = -0.0 := by
  constructor
  · intro zero
    obtain ⟨s, parts⟩ := unpack_of_beq_zero zero
    have number : x.isNaN = false := by
      change x.toModel.unpack.isNaN = false
      rw [parts]
      rfl
    cases s with
    | positive => exact .inl (eq_of_unpack_eq number parts)
    | negative => exact .inr (eq_of_unpack_eq number parts)
  · rintro (rfl | rfl) <;> decide +kernel

theorem lt_zero_of_not_le (number : x.isNaN = false) (notAbove : ¬ 0.0 ≤ x) : x < 0.0 :=
  (not_le_iff_lt (isNaN_of_isFinite isFinite_zero) number).1 notAbove

theorem not_lt_zero_of_zero_lt (gt : 0.0 < x) : ¬ x < 0.0 := by
  rw [lt_iff_compare, unpack_zero] at gt ⊢
  cases parts : x.toModel.unpack with
  | finite s | infinity s => cases s <;> simp_all [UnpackedFloat.compare]
  | zero | notANumber => simp [UnpackedFloat.compare]

theorem not_beq_zero_of_lt_zero (lt : x < 0.0) : ¬ (x == 0.0) = true := by
  rw [beq_iff_compare, lt_iff_compare.1 lt]
  exact nofun

/-- A number that is not nearer to zero than one above zero has a sign. -/
theorem sign_of_not_abs_lt (number : x.isNaN = false) (pos : 0.0 < y) (far : ¬ x.abs < y) :
    x < 0.0 ∨ 0.0 < x := by
  obtain lt | zero | gt := sign_cases number
  · exact .inl lt
  · obtain ⟨s, parts⟩ := unpack_of_beq_zero zero
    have absolute : x.abs.toModel.unpack = .zero .positive := by
      change (pack x.toModel.unpack.abs).unpack = _
      rw [parts]
      exact unpack_pack_zero .positive
    rw [lt_iff_compare, absolute, ← unpack_zero, ← lt_iff_compare] at far
    exact absurd pos far
  · exact .inr gt

/-- Two floats are of opposite signs. -/
def Opposite (x y : Float) : Prop := x < 0.0 ∧ 0.0 < y ∨ 0.0 < x ∧ y < 0.0

instance : DecidableRel Opposite := fun x y =>
  inferInstanceAs (Decidable (x < 0.0 ∧ 0.0 < y ∨ 0.0 < x ∧ y < 0.0))

theorem Opposite.symm (opposite : Opposite x y) : Opposite y x :=
  (Or.symm opposite).imp And.symm And.symm

/-- Of two floats of opposite signs, a third one with a sign is opposite to one and not to the
other. -/
theorem Opposite.right_iff_not_left (opposite : Opposite x y) (sign : z < 0.0 ∨ 0.0 < z) :
    Opposite z y ↔ ¬ Opposite x z := by
  have notBelow {u : Float} (gt : 0.0 < u) : ¬ u < 0.0 := not_lt_zero_of_zero_lt gt
  have notAbove {u : Float} (lt : u < 0.0) : ¬ 0.0 < u := fun gt => not_lt_zero_of_zero_lt gt lt
  obtain ⟨lt, gt⟩ | ⟨gt, lt⟩ := opposite <;> obtain below | above := sign
  · simp [Opposite, lt, gt, below, notBelow gt, notAbove lt, notAbove below]
  · simp [Opposite, lt, above, notBelow gt, notBelow above]
  · simp [Opposite, gt, below, notAbove lt, notAbove below]
  · simp [Opposite, lt, gt, above, notBelow gt, notAbove lt, notBelow above]

theorem opposite_iff (first : x.isFinite = true) (second : y.isFinite = true) :
    Opposite x y ↔ value x * value y < 0 := by
  rw [Opposite, lt_zero_iff first, zero_lt_iff second, zero_lt_iff first, lt_zero_iff second,
    mul_neg_iff, or_comm]

theorem sided_of_nonneg {q : ℚ} (computes : Computes q z) (nonneg : 0 ≤ q) :
    Sided .positive z.toModel.unpack :=
  sided_positive_iff.2 (computes.not_lt_of_le isFinite_zero (value_zero.trans_le nonneg))

theorem sided_of_nonpos {q : ℚ} (computes : Computes q z) (nonpos : q ≤ 0) :
    Sided .negative z.toModel.unpack :=
  sided_negative_iff.2 (computes.not_gt_of_le isFinite_zero (nonpos.trans_eq value_zero.symm))

/-- A number is rounded to zero if it is within half of the least positive float. -/
theorem Computes.beq_zero_iff {q : ℚ} (computes : Computes q z) :
    (z == 0.0) = true ↔ |q| ≤ 2 ^ (-1075 : ℤ) := by
  cases computes with
  | finite finite rounds =>
    rw [beq_iff finite isFinite_zero, value_zero]
    exact rounds.vanishes_iff
  | above parts beyond =>
    have far : (2 : ℚ) ^ (-1075 : ℤ) < |q| := by
      calc (2 : ℚ) ^ (-1075 : ℤ) < (1 : ℕ) * 2 ^ (-1 : ℤ) := half_of_least_lt le_rfl (by decide)
        _ = value 0.5 := by rw [value_half]; norm_num
        _ < q := beyond 0.5 (by decide +kernel)
        _ ≤ |q| := le_abs_self q
    refine iff_of_false (fun zero => ?_) far.not_ge
    obtain ⟨s, zero⟩ := unpack_of_beq_zero zero
    simp [parts] at zero
  | below parts beyond =>
    have far : (2 : ℚ) ^ (-1075 : ℤ) < |q| := by
      calc (2 : ℚ) ^ (-1075 : ℤ) < (1 : ℕ) * 2 ^ (-1 : ℤ) := half_of_least_lt le_rfl (by decide)
        _ = -value (-0.5) := by rw [value_neg_half]; norm_num
        _ < -q := neg_lt_neg (beyond (-0.5) (by decide +kernel))
        _ ≤ |q| := neg_le_abs q
    refine iff_of_false (fun zero => ?_) far.not_ge
    obtain ⟨s, zero⟩ := unpack_of_beq_zero zero
    simp [parts] at zero

/-- A number that is not nearer to zero than a float is not rounded to zero. -/
theorem Computes.ne_zero {q g : ℚ} (computes : Computes q z) (onGrid : OnGrid g) (nonzero : g ≠ 0)
    (farther : |g| ≤ |q|) (s : Sign) : z.toModel.unpack ≠ .zero s := by
  intro zero
  have rounded : (z == 0.0) = true := by
    rw [beq_iff_compare, zero, unpack_zero]
    rfl
  exact nonzero (onGrid.eq_zero_iff.2 (farther.trans (computes.beq_zero_iff.1 rounded)))

/-- A product is less than zero where the signs of the factors are opposite and it is not rounded to
zero. -/
theorem mul_lt_zero_iff (first : x.isFinite = true) (second : y.isFinite = true) :
    x * y < 0.0 ↔ value x * value y < -2 ^ (-1075 : ℤ) := by
  have computes := computes_mul first second
  have half : (0 : ℚ) < 2 ^ (-1075 : ℤ) := by positivity
  obtain lt | zero | gt := sign_cases computes.isNaN
  · have far := mt computes.beq_zero_iff.2 (not_beq_zero_of_lt_zero lt)
    have below : value x * value y < 0 := by
      by_contra! nonneg
      exact computes.not_lt_of_le isFinite_zero (value_zero.trans_le nonneg) lt
    rw [abs_of_neg below, not_le] at far
    exact iff_of_true lt (by linarith)
  · have near := abs_le.1 (computes.beq_zero_iff.1 zero)
    exact iff_of_false (fun lt => not_beq_zero_of_lt_zero lt zero) near.1.not_gt
  · refine iff_of_false (fun lt => not_lt_zero_of_zero_lt gt lt) fun below => ?_
    exact computes.not_gt_of_le isFinite_zero (by rw [value_zero]; linarith) gt

/-- Taking away what is not greater than zero leaves nothing less. -/
theorem not_sub_lt (finite : x.isFinite = true) (sided : Sided .negative y.toModel.unpack) :
    ¬ x - y < x := by
  cases whole : y.isFinite with
  | true =>
    rw [sided_negative_iff, zero_lt_iff whole, not_lt] at sided
    exact (computes_sub finite whole).not_lt_of_le finite (by linarith)
  | false =>
    -- What is not finite has no value: the difference is not a number, or the positive infinity.
    have difference : (x - y).toModel.unpack =
        (pack (x.toModel.unpack.sub .binary64 y.toModel.unpack)).unpack := rfl
    obtain other | ⟨s, other⟩ := unpack_of_not_isFinite whole
    · have notNumber : (x - y).toModel.unpack = .notANumber := by
        rw [difference, other]
        cases x.toModel.unpack <;> exact unpack_pack_notANumber
      rw [lt_iff_compare, notNumber]
      simp [UnpackedFloat.compare]
    · rw [other] at sided
      have greatest : (x - y).toModel.unpack = .infinity .positive := by
        rw [difference, other, show s = .negative from sided]
        obtain ⟨t, parts⟩ | ⟨t, m, e, pos, parts⟩ := unpack_of_isFinite finite
        all_goals
          rw [parts]
          exact unpack_pack_infinity .positive
      exact fun lt => not_le_infinity greatest finite (le_of_lt lt)

end

end Stepwise.Binary64
