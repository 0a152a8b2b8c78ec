import Stepwise.Root.Bracketing
import Stepwise.Root.FixedPoint
import Stepwise.Root.Tangent
import Stepwise.Root.Secant

/-!
# Root finders

- `Method`: the five methods, their titles and the starting points that they need
- `Finder`: settings, an evaluator, and the report of the latest search
- `Finder.solve`, `Finder.solveWithTolerance`, `Finder.setTolerance`
-/

namespace Stepwise.Root

inductive Method where
  | bisection
  | falsePosition
  | secant
  | newtonRaphson
  | fixedPoint
deriving DecidableEq, Repr

namespace Method

def title : Method → String
  | .bisection => "Bisection method"
  | .falsePosition => "False Position method"
  | .secant => "Secant method"
  | .newtonRaphson => "Newton-Raphson method"
  | .fixedPoint => "Fixed-point iteration"

/-- The starting points of a method: the open methods with a single memory need one, all others
two. -/
abbrev Start : Method → Type
  | .bisection => Float × Float
  | .falsePosition => Float × Float
  | .secant => Float × Float
  | .newtonRaphson => Float
  | .fixedPoint => Float

def report {ε : Type} [ToString ε] (method : Method) (p : Problem ε) (start : method.Start) :
    Report ε :=
  match method, start with
  | .bisection, (a, b) => (Root.bisection p).report p (title .bisection) (bracketStart p a b)
  | .falsePosition, (a, b) =>
    (Root.falsePosition p).report p (title .falsePosition) (bracketStart p a b)
  | .secant, (x0, x1) => (Root.secant p).report p (title .secant) (secantStart p x0 x1)
  | .newtonRaphson, x0 => (Root.newtonRaphson p).report p (title .newtonRaphson) (newtonStart p x0)
  | .fixedPoint, x0 => (Root.fixedPoint p).report p (title .fixedPoint) (fixedPointStart p x0)

end Method

/-- A root finder. Its settings outlast a search, its report does not. -/
structure Finder (method : Method) (ε : Type) where
  settings : Settings
  evaluator : Evaluator ε
  /-- The report of the latest search, if there was one. -/
  report? : Option (Report ε) := none

namespace Finder

variable {method : Method} {ε : Type}

def setTolerance (f : Finder method ε) (tolerance : Float) :
    Except SettingError (Finder method ε) := do
  return { f with settings := ← f.settings.withTolerance tolerance }

def solve [ToString ε] (f : Finder method ε) (formula : String) (start : method.Start) :
    Finder method ε :=
  let p : Problem ε := { evaluator := f.evaluator, formula, settings := f.settings }
  { f with report? := some (method.report p start) }

/-- Sets the tolerance and searches. With a tolerance that is refused, the search fails at once and
the settings stay. -/
def solveWithTolerance [ToString ε] (f : Finder method ε) (formula : String)
    (start : method.Start) (tolerance : Float) : Finder method ε :=
  match f.setTolerance tolerance with
  | .error e => { f with report? := some (.refused method.title (.invalidSetting e)) }
  | .ok f => f.solve formula start

variable [ToString ε] {f : Finder method ε} {formula : String} {start : method.Start}
  {tolerance : Float}

theorem solveWithTolerance_of_refused (refused : isTolerance tolerance = false) :
    f.solveWithTolerance formula start tolerance =
      { f with
        report? := some (.refused method.title (.invalidSetting (.tolerance tolerance))) } := by
  simp [solveWithTolerance, setTolerance, Settings.withTolerance, refused, bind, Except.bind]

theorem solveWithTolerance_of_accepted (accepted : isTolerance tolerance = true) :
    f.solveWithTolerance formula start tolerance =
      { f with settings := { f.settings with tolerance } }.solve formula start := by
  simp [solveWithTolerance, setTolerance, Settings.withTolerance, accepted, bind, Except.bind, pure,
    Except.pure]

end Finder

end Stepwise.Root
