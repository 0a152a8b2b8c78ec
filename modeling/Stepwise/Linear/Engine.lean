import Stepwise.Linear.Solver

/-!
# Solvers at work

A solver for linear systems as a machine: everything that it knows is its state, which each call
changes step by step, and which keeps what was done when a call fails.

- `Engine`: the state
- `Engine.setTolerance`, `Engine.solve`: the calls
- `Engine.Call`, `Engine.after`: calls as data, and the state that a series of them leads to
-/

namespace Stepwise.Linear

/-- A solver. The settings and the formats outlast a solution, everything else is of the latest
one. -/
structure Engine (method : Method) where
  settings : Settings
  formats : NumberFormats
  transcript : Transcript := .empty
  iterations : List (List Float) := []
  solution : List method.Value := []
  error? : Option Error := none

namespace Engine

variable {method : Method} {α : Type} {n : Nat}

def make (settings : Settings) : Engine method where
  settings := settings
  formats := .forTolerance settings.tolerance

def setup (e : Engine method) : Setup := { e.settings with formats := e.formats }

def record (e : Engine method) (lines : List String) (passes : List (List Float)) : Engine method :=
  { e with transcript := e.transcript.extend lines, iterations := e.iterations ++ passes }

def answered (e : Engine method) (lines : List String) : Engine method :=
  { e with transcript := lines.foldl .answer e.transcript }

def cleared (e : Engine method) : Engine method :=
  { e with transcript := .empty, iterations := [], solution := [], error? := none }

/-- A tolerance is taken over together with the formats that follow it. -/
def setTolerance (tolerance : Float) : EStateM SettingError (Engine method) Unit := do
  let settings ← ofExcept ((← get).settings.withTolerance tolerance)
  modify ({ · with settings })
  modify ({ · with formats := .forTolerance tolerance })

/-! ## Solutions -/

/-- What is done in a solution. An error leaves the state as it is by then. -/
abbrev Work (method : Method) := EStateM Error (Engine method)

def write (lines : List String) : Work method Unit := modify (·.record lines [])

def answer (lines : List String) : Work method Unit := modify (·.answered lines)

def follow (trail : Trail String Error α) : Work method α := do
  write trail.entries
  ofExcept trail.ending

def prepare (tolerance? : Option Float) : Work method Unit := do
  modify cleared
  if let some tolerance := tolerance? then
    (setTolerance tolerance).adaptExcept .invalidSetting

def conduct (trail : Trail String Error (List α)) (answers : List α → List String) :
    Work method (Solution α) := do
  let values ← follow trail
  answer (answers values)
  return ⟨values, true⟩

def pursue (setup : Setup) (s : System Float n) (kind : Sweep) : Work method (Solution Float) := do
  let arranged ← follow (sweepStart setup s kind)
  let halt ← (sweepScheme setup arranged kind).carryOut
    (fun count p e => e.record (passLines setup arranged count p) [p.result.toList])
    (fun count p e => e.record (updateLines setup arranged count p) [])
    1 maxPasses (Vector.replicate n 0.0)
  let solution : Solution Float :=
    match halt with
    | .settled last => ⟨last.result.toList, true⟩
    | .exhausted values => ⟨values.toList, false⟩
  answer (sweepAnswers setup (← get).iterations.length solution)
  return solution

def search {state : Method} (method : Method) (setup : Setup) (s : System Float n) :
    Work state (Solution method.Value) :=
  match method with
  | .cramer => conduct (cramerTrail setup s) (cramerAnswers setup)
  | .gaussian => conduct (gaussianTrail setup s) (gaussianAnswers setup)
  | .jacobi => pursue setup s .jacobi
  | .gaussSeidel => pursue setup s .gaussSeidel

def finish : EStateM.Result Error (Engine method) (Solution method.Value) → Outcome × Engine method
  | .ok solution e =>
    (if solution.converged then .converged else .exhausted, { e with solution := solution.values })
  | .error cause e =>
    let line := method.title ++ " cannot continue: " ++ cause.message
    (.failed, { e with transcript := e.transcript.step line, error? := some cause })

/-- Solves a system, with another tolerance if one is given, which then stays. -/
def solve (e : Engine method) (rows : List (List Float)) (constants : List Float)
    (tolerance? : Option Float) : Outcome × Engine method :=
  finish <| EStateM.run (s := e) do
    prepare tolerance?
    let s ← ofExcept (System.check method.required rows constants)
    search method (← get).setup s

/-! ## Series of calls -/

inductive Call where
  | setTolerance (tolerance : Float)
  | solve (rows : List (List Float)) (constants : List Float) (tolerance? : Option Float)

def call (e : Engine method) : Call → Engine method
  | .setTolerance tolerance => stateAfter ((setTolerance tolerance).run e)
  | .solve rows constants tolerance? => (e.solve rows constants tolerance?).2

def after (e : Engine method) (calls : List Call) : Engine method := calls.foldl call e

end Engine

end Stepwise.Linear
