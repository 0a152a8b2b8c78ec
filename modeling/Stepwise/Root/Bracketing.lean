import Stepwise.Root.Bracket
import Stepwise.Root.Report

/-!
# Bracketing methods

Methods that keep a bracket and replace one of its ends in every step.

- `bisection`: the estimate is the middle of the bracket
- `falsePosition`: the estimate is the zero of the chord
-/

namespace Stepwise.Root

/-- A step of a bracketing method: the bracket it starts from, and the estimate taken inside. -/
structure BracketStep where
  bracket : Bracket
  estimate : Sample

variable {ε : Type}

/-- The lines that the bracketing methods have in common, `how` telling where the estimate comes
from. -/
def bracketLines (p : Problem ε) (count : Nat) (s : BracketStep) (how : String) : List String :=
  ["Iteration " ++ toString count ++ ":",
    "  " ++ p.sampleText "a" s.bracket.left,
    "  " ++ p.sampleText "b" s.bracket.right,
    "  c = " ++ how ++ " = " ++ p.number s.estimate.point,
    "  f(c) = " ++ p.plugged s.estimate.point ++ " = " ++ p.number s.estimate.value,
    ""]

/-- A method that takes a sample at `guess` and stops when `settles` says so. -/
def bracketing (p : Problem ε) (guess : Bracket → Float) (settles : BracketStep → Bool)
    (how : Bracket → String) (remarks : BracketStep → List String) :
    Rule Bracket BracketStep ε where
  attempt _ bracket :=
    match p.sample (guess bracket) with
    | .error cause => .error { cause }
    | .ok estimate => .ok { bracket, estimate }
  settles := settles
  next bracket step := bracket.shrink step.estimate
  estimate step := step.estimate.point
  best := Bracket.midpoint
  lines count step := bracketLines p count step (how step.bracket)
  remarks := remarks

def bracketStart (p : Problem ε) (a b : Float) : Trail String (Error ε) Bracket := do
  let (a, b) ← p.openingSamples "a" "b" a b
  .ofExcept (Bracket.make a b)

/-- Halves the bracket until the value at its middle, or half its width, is below the tolerance. -/
def bisection (p : Problem ε) : Rule Bracket BracketStep ε :=
  bracketing p Bracket.midpoint
    (fun s => s.estimate.value.abs < p.settings.tolerance ||
      0.5 * s.bracket.width < p.settings.tolerance)
    (fun k =>
      "(a + b)/2 = (" ++ p.number k.left.point ++ " + " ++ p.number k.right.point ++ ")/2")
    (fun _ => [])

def falsePositionWithin (p : Problem ε) (s : BracketStep) : Bool :=
  s.estimate.value.abs < p.settings.tolerance || s.bracket.width < p.settings.tolerance

/-- Cuts the bracket where its chord crosses zero, until the estimate is within the tolerance or
falls on an end of the bracket, which then cannot shrink any more. -/
def falsePosition (p : Problem ε) : Rule Bracket BracketStep ε :=
  bracketing p Bracket.chordRoot
    (fun s => falsePositionWithin p s || s.bracket.isEnd s.estimate.point)
    (fun k =>
      let a := p.number k.left.point
      let b := p.number k.right.point
      let fa := p.number k.left.value
      let fb := p.number k.right.value
      "a - (f(a)*(b-a))/(f(b)-f(a)) = " ++ a ++ " - (" ++ fa ++ "*(" ++ b ++ "-" ++ a ++ "))/(" ++
        fb ++ "-" ++ fa ++ ")")
    (fun s =>
      if falsePositionWithin p s then []
      else ["Estimate did not move off the bracket endpoint."])

end Stepwise.Root
