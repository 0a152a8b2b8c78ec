import Stepwise.Fraction
import Stepwise.Proofs.Binary64.Overflow

/-!
# Which floats become fractions

A float is scaled before it is cut off, and the product may be beyond all floats though the float
itself is finite.

- `limit`, `Fits`: how great a float may be
- `ofFloat_eq_error_iff`: every other float is refused as not finite
-/

namespace Stepwise.Fraction

/-- The least magnitude that scaling takes beyond all floats. -/
def limit : ℚ := Binary64.overflow / scale

/-- Scaling leaves the float finite. -/
def Fits (x : Float) : Prop := |Binary64.value x| < limit

theorem isFinite_scale : scale.toFloat.isFinite = true := by decide +kernel

theorem value_scale : Binary64.value scale.toFloat = scale := by
  have parts : scale.toFloat.toModel.unpack =
      .finite .positive 6871947673600000 (-36) (by decide) := by
    rfl
  rw [Binary64.value, parts, Binary64.rational_positive, scale]
  norm_num

theorem isFinite_scaled_iff {x : Float} :
    (x * scale.toFloat).isFinite = true ↔ x.isFinite = true ∧ Fits x := by
  have positive : (0 : ℚ) < scale := by norm_num [scale]
  have scaled (finite : x.isFinite = true) : (x * scale.toFloat).isFinite = true ↔ Fits x := by
    rw [Binary64.isFinite_mul_iff finite isFinite_scale, value_scale, abs_mul,
      abs_of_pos positive, Fits, limit, lt_div_iff₀ positive]
  constructor
  · intro product
    have finite := Binary64.isFinite_of_mul product
    exact ⟨finite, (scaled finite).1 product⟩
  · rintro ⟨finite, fits⟩
    exact (scaled finite).2 fits

theorem truncate?_eq_none_iff {x : Float} :
    (Binary64.ofFloat x).truncate? = none ↔ x.isFinite = false := by
  cases finite : x.isFinite with
  | false =>
    refine iff_of_true ?_ rfl
    cases truncated : (Binary64.ofFloat x).truncate? with
    | none => rfl
    | some whole =>
      rw [Binary64.isFinite_of_truncate truncated] at finite
      cases finite
  | true =>
    obtain ⟨negative, m, parts⟩ := Binary64.exists_finite_of_isFinite finite
    rw [parts]
    exact iff_of_false nofun nofun

/-- A float that is too great for the scale is refused like one that is not finite. -/
theorem ofFloat_eq_error_iff {x : Float} {cause : Error} :
    ofFloat x = .error cause ↔ cause = .notFinite x ∧ (x.isFinite = true → ¬ Fits x) := by
  have refused : (Binary64.ofFloat (x * scale.toFloat)).truncate? = none ↔
      (x.isFinite = true → ¬ Fits x) := by
    rw [truncate?_eq_none_iff, ← Bool.not_eq_true, isFinite_scaled_iff, not_and]
  rw [← refused, ofFloat]
  cases (Binary64.ofFloat (x * scale.toFloat)).truncate? with
  | none => simp [eq_comm]
  | some whole => simp

end Stepwise.Fraction
