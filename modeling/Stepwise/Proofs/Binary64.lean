import Mathlib
import Stepwise.Binary64

/-!
# Finite floats

A finite float has a sign and a magnitude. One that is not finite stays so in a product, and has no
integral part.
-/

namespace Stepwise.Binary64

open Float.Model

theorem isFinite_unpack_pack {u : UnpackedFloat} (infinite : u.isFinite = false) :
    (pack u).unpack.isFinite = false := by
  cases u with
  | zero | finite => simp [UnpackedFloat.isFinite] at infinite
  | notANumber =>
    simp [pack, unpack, UnpackedFloat.unpack, UnpackedFloat.pack, UnpackedFloat.packedNaN,
      UnpackedFloat.isFinite]
  | infinity sign =>
    simp [pack, unpack, UnpackedFloat.unpack, UnpackedFloat.pack, UnpackedFloat.packedInfinity,
      UnpackedFloat.isFinite]

theorem isFinite_mul_left (format : Format) {u : UnpackedFloat} (infinite : u.isFinite = false)
    (v : UnpackedFloat) : (u.mul format v).isFinite = false := by
  cases u with
  | zero | finite => simp [UnpackedFloat.isFinite] at infinite
  | notANumber => rfl
  | infinity sign => cases v <;> rfl

theorem isFinite_mul_right (format : Format) (u : UnpackedFloat) {v : UnpackedFloat}
    (infinite : v.isFinite = false) : (u.mul format v).isFinite = false := by
  cases v with
  | zero | finite => simp [UnpackedFloat.isFinite] at infinite
  | notANumber => cases u <;> rfl
  | infinity sign => cases u <;> rfl

/-- The factors of a finite product are finite. -/
theorem isFinite_of_mul {x y : Float} (finite : (x * y).isFinite = true) : x.isFinite = true := by
  cases whole : x.isFinite with
  | true => rfl
  | false =>
    -- The product of floats is that of their unpacked parts, packed again.
    have product : (x * y).isFinite = false :=
      isFinite_unpack_pack (isFinite_mul_left .binary64 whole y.toModel.unpack)
    rw [product] at finite
    cases finite

theorem isFinite_of_mul_right {x y : Float} (finite : (x * y).isFinite = true) :
    y.isFinite = true := by
  cases whole : y.isFinite with
  | true => rfl
  | false =>
    have product : (x * y).isFinite = false :=
      isFinite_unpack_pack (isFinite_mul_right .binary64 x.toModel.unpack whole)
    rw [product] at finite
    cases finite

theorem unpack_of_isFinite {x : Float} (finite : x.isFinite = true) :
    (∃ s, x.toModel.unpack = .zero s) ∨ ∃ s m e pos, x.toModel.unpack = .finite s m e pos := by
  change x.toModel.unpack.isFinite = true at finite
  cases parts : x.toModel.unpack with
  | zero s => exact .inl ⟨s, rfl⟩
  | finite s m e pos => exact .inr ⟨s, m, e, pos, rfl⟩
  | notANumber | infinity =>
    rw [parts] at finite
    cases finite

theorem unpack_of_not_isFinite {x : Float} (infinite : x.isFinite = false) :
    x.toModel.unpack = .notANumber ∨ ∃ s, x.toModel.unpack = .infinity s := by
  change x.toModel.unpack.isFinite = false at infinite
  cases parts : x.toModel.unpack with
  | notANumber => exact .inl rfl
  | infinity s => exact .inr ⟨s, rfl⟩
  | zero | finite =>
    rw [parts] at infinite
    cases infinite

theorem exists_finite_of_isFinite {x : Float} (finite : x.isFinite = true) :
    ∃ negative m, ofFloat x = .finite negative m := by
  rw [ofFloat]
  obtain ⟨s, parts⟩ | ⟨s, m, e, pos, parts⟩ := unpack_of_isFinite finite
  all_goals
    rw [parts]
    exact ⟨_, _, rfl⟩

theorem isFinite_of_truncate {x : Float} {whole : Int}
    (truncated : (ofFloat x).truncate? = some whole) : x.isFinite = true := by
  change x.toModel.unpack.isFinite = true
  rw [ofFloat] at truncated
  cases parts : x.toModel.unpack with
  | zero | finite => rfl
  | notANumber => simp [parts, truncate?] at truncated
  | infinity sign => simp [parts, truncate?] at truncated

end Stepwise.Binary64
