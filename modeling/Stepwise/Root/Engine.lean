import Stepwise.Root.Finder

/-!
# Root finders at work

A root finder as a machine: everything that it knows is its state, which each call changes step by
step, and which keeps what was done when a call fails.

- `Engine`: the state
- `Engine.setTolerance`, `Engine.setDerivativeStep`, `Engine.solve`: the calls
- `Engine.Call`, `Engine.after`: calls as data, and the state that a series of them leads to
-/

namespace Stepwise.Root

/-- A root finder. The settings and the formats outlast a search, everything else is of the latest
one. -/
structure Engine (method : Method) (ε : Type) where
  settings : Settings
  formats : NumberFormats
  evaluator : Evaluator ε
  formula : String := ""
  transcript : Transcript := .empty
  iterations : List Float := []
  root? : Option Float := none
  error? : Option (Error ε) := none

namespace Engine

variable {method : Method} {ε σ β α : Type}

def make (settings : Settings) (evaluator : Evaluator ε) : Engine method ε where
  settings := settings
  formats := .forTolerance settings.tolerance
  evaluator := evaluator

def problem (e : Engine method ε) : Problem ε where
  evaluator := e.evaluator
  formula := e.formula
  settings := e.settings
  formats := e.formats

def record (e : Engine method ε) (lines : List String) (estimates : List Float) :
    Engine method ε :=
  { e with transcript := e.transcript.extend lines, iterations := e.iterations ++ estimates }

def cleared (e : Engine method ε) (formula : String) : Engine method ε :=
  { e with
    formula, transcript := .empty, iterations := [], root? := none, error? := none }

/-- A tolerance is taken over together with the formats that follow it. -/
def setTolerance (tolerance : Float) : EStateM SettingError (Engine method ε) Unit := do
  let settings ← ofExcept ((← get).settings.withTolerance tolerance)
  modify ({ · with settings })
  modify ({ · with formats := .forTolerance tolerance })

def setDerivativeStep (h : Float) : EStateM SettingError (Engine method ε) Unit := do
  let settings ← ofExcept ((← get).settings.withDerivativeStep h)
  modify ({ · with settings })

/-! ## Searches -/

/-- What is done in a search. An error leaves the state as it is by then. -/
abbrev Work (method : Method) (ε : Type) := EStateM (Error ε) (Engine method ε)

def write (lines : List String) : Work method ε Unit := modify (·.record lines [])

def follow (trail : Trail String (Error ε) α) : Work method ε α := do
  write trail.entries
  ofExcept trail.ending

def prepare (formula : String) (tolerance? : Option Float) : Work method ε Unit := do
  modify (·.cleared formula)
  if let some tolerance := tolerance? then
    (setTolerance tolerance).adaptExcept .invalidSetting
  write (← get).problem.opening

def pursue (rule : Rule σ β ε) (start : Trail String (Error ε) σ) :
    Work method ε (Float × Outcome) := do
  let first ← follow start
  let halt ← rule.carryOut
    (fun count step e => e.record (rule.lines count step) [rule.estimate step])
    (fun count step e => e.record (rule.abandonedLines count step) [])
    1 (← get).settings.maxIterations first
  match halt with
  | .settled last =>
    write (rule.remarks last ++ ["Convergence achieved!"])
    return (rule.estimate last, .converged)
  | .exhausted state =>
    write ["Maximum iterations reached without convergence."]
    return (rule.best state, .exhausted)

def search {state : Method} (method : Method) (p : Problem ε) (start : method.Start) :
    Work state ε (Float × Outcome) :=
  match method, start with
  | .bisection, (a, b) => pursue (bisection p) (bracketStart p a b)
  | .falsePosition, (a, b) => pursue (falsePosition p) (bracketStart p a b)
  | .secant, (x0, x1) => pursue (secant p) (secantStart p x0 x1)
  | .newtonRaphson, x0 => pursue (newtonRaphson p) (newtonStart p x0)
  | .fixedPoint, x0 => pursue (fixedPoint p) (fixedPointStart p x0)

def finish [ToString ε] :
    EStateM.Result (Error ε) (Engine method ε) (Float × Outcome) → Outcome × Engine method ε
  | .ok (root, outcome) e =>
    let t := ((e.transcript.answer ("Root found: " ++ e.problem.number root)).answer
      ("Number of iterations: " ++ toString e.iterations.length)).answer
      ("Final tolerance: " ++ e.problem.number e.settings.tolerance)
    (outcome, { e with transcript := t, root? := some root })
  | .error cause e =>
    let line := method.title ++ " cannot continue: " ++ cause.message
    (.failed, { e with transcript := e.transcript.step line, error? := some cause })

/-- Searches for a root of a formula, with another tolerance if one is given, which then stays. -/
def solve [ToString ε] (e : Engine method ε) (formula : String) (start : method.Start)
    (tolerance? : Option Float) : Outcome × Engine method ε :=
  finish <| EStateM.run (s := e) do
    prepare formula tolerance?
    search method (← get).problem start

/-! ## Series of calls -/

inductive Call (method : Method) where
  | setTolerance (tolerance : Float)
  | setDerivativeStep (h : Float)
  | solve (formula : String) (start : method.Start) (tolerance? : Option Float)

def call [ToString ε] (e : Engine method ε) : Call method → Engine method ε
  | .setTolerance tolerance => stateAfter ((setTolerance tolerance).run e)
  | .setDerivativeStep h => stateAfter ((setDerivativeStep h).run e)
  | .solve formula start tolerance? => (e.solve formula start tolerance?).2

def after [ToString ε] (e : Engine method ε) (calls : List (Call method)) : Engine method ε :=
  calls.foldl call e

end Engine

end Stepwise.Root
