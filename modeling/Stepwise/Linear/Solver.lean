import Stepwise.Linear.Determinant
import Stepwise.Linear.Elimination
import Stepwise.Linear.Sweep

/-!
# Solvers for linear systems

- `Method`: the four methods, their titles and the values that they find
- `Solver`: settings, and the report of the latest solution
- `Solver.solve`, `Solver.solveWithTolerance`, `Solver.setTolerance`
-/

namespace Stepwise.Linear

inductive Method where
  | cramer
  | gaussian
  | jacobi
  | gaussSeidel
deriving DecidableEq, Repr

namespace Method

def title : Method → String
  | .cramer => "Cramer's Rule"
  | .gaussian => "Gaussian Elimination"
  | .jacobi => "Jacobi method"
  | .gaussSeidel => "Gauss-Seidel method"

/-- What a method finds: the direct methods fractions, the others floats. -/
abbrev Value : Method → Type
  | .cramer => Fraction
  | .gaussian => Fraction
  | .jacobi => Float
  | .gaussSeidel => Float

def required : Method → Nat
  | .cramer => 2
  | _ => 1

def report (method : Method) (setup : Setup) (rows : List (List Float))
    (constants : List Float) : Report method.Value :=
  match System.check method.required rows constants with
  | .error e => .conclude method.title [] [] (.error e) []
  | .ok s =>
    match method with
    | .cramer => Linear.cramer (title .cramer) setup s
    | .gaussian => Linear.gaussian (title .gaussian) setup s
    | .jacobi => sweep (title .jacobi) setup s .jacobi
    | .gaussSeidel => sweep (title .gaussSeidel) setup s .gaussSeidel

end Method

/-- A solver. Its settings outlast a solution, its report does not. -/
structure Solver (method : Method) where
  settings : Settings
  /-- The report of the latest solution, if there was one. -/
  report? : Option (Report method.Value) := none

namespace Solver

variable {method : Method}

def setTolerance (solver : Solver method) (tolerance : Float) :
    Except SettingError (Solver method) := do
  return { solver with settings := ← solver.settings.withTolerance tolerance }

def solve (solver : Solver method) (rows : List (List Float)) (constants : List Float) :
    Solver method :=
  { solver with report? := some (method.report solver.settings rows constants) }

/-- Sets the tolerance and solves. With a tolerance that is refused, the solution fails at once and
the settings stay. -/
def solveWithTolerance (solver : Solver method) (rows : List (List Float))
    (constants : List Float) (tolerance : Float) : Solver method :=
  match solver.setTolerance tolerance with
  | .error e =>
    { solver with report? := some (.conclude method.title [] [] (.error (.invalidSetting e)) []) }
  | .ok solver => solver.solve rows constants

variable {solver : Solver method} {rows : List (List Float)} {constants : List Float}
  {tolerance : Float}

theorem solveWithTolerance_of_refused (refused : isTolerance tolerance = false) :
    solver.solveWithTolerance rows constants tolerance =
      { solver with
        report? := some (.conclude method.title [] []
          (.error (.invalidSetting (.tolerance tolerance))) []) } := by
  simp [solveWithTolerance, setTolerance, Settings.withTolerance, refused, bind, Except.bind]

theorem solveWithTolerance_of_accepted (accepted : isTolerance tolerance = true) :
    solver.solveWithTolerance rows constants tolerance =
      { solver with settings := { solver.settings with tolerance } }.solve rows constants := by
  simp [solveWithTolerance, setTolerance, Settings.withTolerance, accepted, bind, Except.bind, pure,
    Except.pure]

end Solver

end Stepwise.Linear
