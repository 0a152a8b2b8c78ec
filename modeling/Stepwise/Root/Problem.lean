import Stepwise.Formula.Basic
import Stepwise.Formula.Substitution
import Stepwise.NumberFormat
import Stepwise.Root.Error
import Stepwise.Trail

/-!
# The problem of a root search

What a root search is given, beside its starting points: a formula, the means to evaluate it, and
the settings. From these follow the values that the search sees and the way it writes them down.
-/

namespace Stepwise.Root

structure Problem (ε : Type) where
  evaluator : Evaluator ε
  formula : String
  settings : Settings
  /-- The formats of the numbers, which follow the tolerance unless they are given. -/
  formats : NumberFormats := .forTolerance settings.tolerance

namespace Problem

variable {ε : Type}

/-- Evaluates the formula at a point; only finite values will do. -/
def sample (p : Problem ε) (point : Float) : Except (Error ε) Sample :=
  match p.evaluator p.formula p.settings.variableName point with
  | .error cause => .error (.evaluation point cause)
  | .ok value =>
    if value.isFinite then .ok ⟨point, value⟩ else .error (.nonFinite ⟨point, value⟩)

def number (p : Problem ε) (x : Float) : String := p.formats.shown.text x

def plugged (p : Problem ε) (x : Float) : String :=
  Formula.substitute p.formula p.settings.variableName (p.formats.substituted.text x)

/-- A sample with its point named: `a = 1.00, f(a) = 1.00^2 - 2 = -1.00`. -/
def sampleText (p : Problem ε) (name : String) (s : Sample) : String :=
  name ++ " = " ++ p.number s.point ++ ", f(" ++ name ++ ") = " ++ p.plugged s.point ++ " = " ++
    p.number s.value

def opening (p : Problem ε) : List String :=
  ["Using tolerance: " ++ p.number p.settings.tolerance,
    "Maximum iterations: " ++ toString p.settings.maxIterations]

def openingSamples (p : Problem ε) (nameA nameB : String) (a b : Float) :
    Trail String (Error ε) (Sample × Sample) := do
  let a ← .ofExcept (p.sample a)
  let b ← .ofExcept (p.sample b)
  .write ["Initial values:", p.sampleText nameA a, p.sampleText nameB b, ""]
  return (a, b)

end Problem

end Stepwise.Root
