/-!
# Tolerances

A tolerance, like every step width, is a finite number above zero.
-/

namespace Stepwise

/-- Whether a number may serve as a tolerance or a step width. -/
def isTolerance (x : Float) : Bool := x.isFinite && 0.0 < x

theorem isTolerance_iff {x : Float} : isTolerance x = true ↔ x.isFinite = true ∧ 0.0 < x := by
  simp [isTolerance]

/-- The tolerance of a solution for which none is chosen. -/
def defaultTolerance : Float := 1e-4

end Stepwise
