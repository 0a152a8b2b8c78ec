import Stepwise.Root.Report

/-!
# Fixed-point iteration

The next estimate is the value of the formula at the last one, so that a limit is a solution of
`x = g(x)`.
-/

namespace Stepwise.Root

/-- The width of the difference from which the slope at the starting point is judged. -/
def slopeStep : Float := 1e-10

def Sample.defect (s : Sample) : Float := (s.value - s.point).abs

variable {ε : Type}

def fixedPointLines (p : Problem ε) (count : Nat) (s : Sample) : List String :=
  let older := "x" ++ toString (count - 1)
  let x := p.number s.point
  let gx := p.number s.value
  ["Iteration " ++ toString count ++ ":",
    "  " ++ older ++ " = " ++ x,
    "  x" ++ toString count ++ " = g(" ++ older ++ ") = " ++ p.plugged s.point ++ " = " ++ gx,
    "  Error = |g(x) - x| = |" ++ gx ++ " - " ++ x ++ "| = " ++ p.number s.defect,
    ""]

/-- Applies the formula again and again, until its value differs from the point by less than the
tolerance. -/
def fixedPoint (p : Problem ε) : Rule Float Sample ε where
  attempt _ x :=
    match p.sample x with
    | .error cause => .error { cause }
    | .ok s => .ok s
  settles s := s.defect < p.settings.tolerance
  next _ s := s.value
  estimate := Sample.value
  best x := x
  lines := fixedPointLines p

/-- Judges the slope at the starting point; a steep one is remarked upon. -/
def fixedPointStart (p : Problem ε) (x0 : Float) : Trail String (Error ε) Float := do
  let above ← .ofExcept (p.sample (x0 + slopeStep))
  let base ← .ofExcept (p.sample x0)
  let slope := (above.value - base.value) / slopeStep
  .write ["Derivative at initial guess: g'(x0) = " ++ p.number slope]
  if slope.abs >= 1.0 then
    .write ["Warning: |g'(x)| ≥ 1 at initial guess. Convergence not guaranteed."]
  .write ["Starting fixed-point iteration with initial guess: " ++ p.number x0, ""]
  return x0

end Stepwise.Root
