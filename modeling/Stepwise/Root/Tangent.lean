import Stepwise.Root.Report

/-!
# The Newton-Raphson method

The next estimate is the zero of the tangent, whose slope is a centered difference.
-/

namespace Stepwise.Root

structure Tangent where
  base : Sample
  derivative : Float

def Tangent.zero (t : Tangent) : Float := t.base.point - t.base.value / t.derivative

/-- A tangent with a slope below this crosses zero nowhere near. -/
def minDerivative : Float := 1e-10

variable {ε : Type}

def tangent (p : Problem ε) (x : Float) : Except (Error ε) Tangent := do
  let h := p.settings.derivativeStep
  let base ← p.sample x
  let above ← p.sample (x + h)
  let below ← p.sample (x - h)
  return { base, derivative := (above.value - below.value) / (2.0 * h) }

def tangentLines (p : Problem ε) (count : Nat) (t : Tangent) : List String :=
  let older := "x" ++ toString (count - 1)
  ["Iteration " ++ toString count ++ ":",
    "  " ++ older ++ " = " ++ p.number t.base.point,
    "  f(x) = " ++ p.plugged t.base.point ++ " = " ++ p.number t.base.value,
    "  f'(" ++ older ++ ") = [f(x+h)-f(x-h)]/(2h) = " ++ p.number t.derivative]

def newtonLines (p : Problem ε) (count : Nat) (t : Tangent) : List String :=
  tangentLines p count t ++
    ["  x" ++ toString count ++ " = x - f(x)/f'(x) = " ++ p.number t.base.point ++ " - " ++
        p.number t.base.value ++ "/" ++ p.number t.derivative ++ " = " ++ p.number t.zero,
      ""]

/-- Follows tangents until two estimates in a row differ by less than the tolerance. A tangent that
is nearly level is written down and given up. -/
def newtonRaphson (p : Problem ε) : Rule Float Tangent ε where
  attempt _ x :=
    match tangent p x with
    | .error cause => .error { cause }
    | .ok t =>
      if t.derivative.abs < minDerivative then
        .error { cause := .zeroDerivative x t.derivative, abandoned := some t }
      else .ok t
  settles t := (t.zero - t.base.point).abs < p.settings.tolerance
  next _ t := t.zero
  estimate := Tangent.zero
  best x := x
  lines := newtonLines p
  abandonedLines := tangentLines p

def newtonStart (p : Problem ε) (x0 : Float) : Trail String (Error ε) Float := do
  .write [
    "Derivative step size: " ++ Decimal.scientificText p.settings.derivativeStep,
    "Starting Newton-Raphson method with initial guess: " ++ p.number x0,
    ""]
  return x0

end Stepwise.Root
