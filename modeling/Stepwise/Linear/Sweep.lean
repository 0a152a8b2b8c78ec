import Stepwise.Iteration
import Stepwise.Linear.Arrangement
import Stepwise.Linear.Report

/-!
# Jacobi and Gauss-Seidel iteration

Each pass solves every equation for its unknown on the diagonal, with the other unknowns as they are
known by then: as the last pass left them, or as this pass has made them so far.

- `Sweep`: which of the two
- `Pass`: what a pass computes
- `sweep`: the report of the method
-/

namespace Stepwise.Linear

/-- Which values a pass reads. -/
inductive Sweep where
  /-- Those of the last pass. -/
  | jacobi
  /-- The latest there are. -/
  | gaussSeidel
deriving DecidableEq, Repr

namespace Sweep

def name : Sweep → String
  | .jacobi => "Jacobi"
  | .gaussSeidel => "Gauss-Seidel"

def source {α : Type} (kind : Sweep) (previous current : α) : α :=
  match kind with
  | .jacobi => previous
  | .gaussSeidel => current

end Sweep

variable {n : Nat}

/-! ## Passes -/

structure Update (n : Nat) where
  row : Fin n
  source : Vector Float n
  value : Float

structure Pass (n : Nat) where
  previous : Vector Float n
  updates : List (Update n)
  result : Vector Float n

/-- Solves an equation for its unknown on the diagonal. -/
def System.component (s : System Float n) (source : Vector Float n) (i : Fin n) : Float :=
  let sum := (others i).foldl (fun sum j => sum + s.coefficients.entry i j * source.get j) 0.0
  (s.constants.get i - sum) / s.coefficients.entry i i

def updateFrom (s : System Float n) (kind : Sweep) (previous : Vector Float n) :
    List (Fin n) → Vector Float n → List (Update n) × Vector Float n
  | [], current => ([], current)
  | row :: rows, current =>
    let source := kind.source previous current
    let value := s.component source row
    let later := updateFrom s kind previous rows (current.set row value)
    ({ row, source, value } :: later.1, later.2)

def pass (s : System Float n) (kind : Sweep) (previous : Vector Float n) : Pass n :=
  let updated := updateFrom s kind previous (List.finRange n) previous
  { previous, updates := updated.1, result := updated.2 }

namespace Pass

def isFinite (p : Pass n) : Bool := p.result.toList.all Float.isFinite

/-- Whether no value moved by more than the tolerance. -/
def isSettled (tolerance : Float) (p : Pass n) : Bool :=
  (p.result.toList.zip p.previous.toList).all fun (x, y) => (x - y).abs <= tolerance

end Pass

/-- The iteration as a scheme. A pass with a value that is not finite is given up. -/
def sweepScheme (setup : Setup) (s : System Float n) (kind : Sweep) :
    Scheme (Vector Float n) (Pass n) Error where
  attempt count previous :=
    let p := pass s kind previous
    if p.isFinite then .ok p else .error { cause := .diverged count, abandoned := some p }
  settles := Pass.isSettled setup.tolerance
  next _ p := p.result

/-! ## Text -/

/-- An update as a line: the equation solved, each of its terms with the value of its unknown. -/
def updateText (setup : Setup) (s : System Float n) (u : Update n) : String :=
  let term (j : Fin n) : String :=
    setup.number (s.coefficients.entry u.row j) ++ "*x" ++ toString (j.val + 1) ++ " [" ++
      setup.number (u.source.get j) ++ "]"
  "x" ++ toString (u.row.val + 1) ++ " = (" ++ setup.number (s.constants.get u.row) ++ " - (" ++
    " + ".intercalate ((others u.row).map term) ++ ")) / " ++
    setup.number (s.coefficients.entry u.row u.row) ++ " = " ++ setup.number u.value

def updateLines (setup : Setup) (s : System Float n) (count : Nat) (p : Pass n) :
    List String :=
  "" :: ("Iteration " ++ toString count ++ ":") :: p.updates.map (updateText setup s)

/-- The lines of a pass; the last one sums it up, its number in a field of two places. -/
def passLines (setup : Setup) (s : System Float n) (count : Nat) (p : Pass n) : List String :=
  let number := if count < 10 then " " ++ toString count else toString count
  updateLines setup s count p ++
    ["Iteration " ++ number ++ ": [" ++
      ", ".intercalate (p.result.toList.map setup.number) ++ "]"]

def valueLines (setup : Setup) (values : List Float) : List String :=
  values.mapIdx fun i value => "x" ++ toString (i + 1) ++ " = " ++ setup.number value

/-! ## The method -/

def maxPasses : Nat := 1000

/-- The system as it is iterated: in a dominant order if there is one, and without a zero on the
diagonal. -/
def sweepStart (setup : Setup) (s : System Float n) (kind : Sweep) :
    Trail String Error (System Float n) := do
  .write ("Linear System:" :: s.equations ++ [""])
  let arranged ←
    match dominantOrder s with
    | some order =>
      if isIdentity order then do
        .write ["System is already diagonally dominant"]
        pure s
      else do
        let arranged := s.arrange order
        .write ("System was rearranged to be diagonally dominant" :: arranged.equations)
        pure arranged
    | none => do
      .write ["Warning: System is not diagonally dominant - convergence not guaranteed"]
      pure s
  .write [""]
  match (List.finRange n).find? fun i => arranged.coefficients.entry i i == 0.0 with
  | some row => .fail (.zeroDiagonal (row.val + 1))
  | none =>
    .write ["Starting " ++ kind.name ++ " Iteration:",
      "Using tolerance: " ++ setup.number setup.tolerance]
  return arranged

def runLines (setup : Setup) (s : System Float n)
    (run : Run (Vector Float n) (Pass n) Error) : List String :=
  (run.steps.mapIdx fun i p => passLines setup s (i + 1) p).flatten ++
    match run.ending with
    | .interrupted { abandoned := some p, .. } => updateLines setup s (run.steps.length + 1) p
    | _ => []

def runResult (run : Run (Vector Float n) (Pass n) Error) : Except Error (Solution Float) :=
  match run.ending with
  | .settled last => .ok ⟨last.result.toList, true⟩
  | .exhausted state => .ok ⟨state.toList, false⟩
  | .interrupted interruption => .error interruption.cause

def sweepAnswers (setup : Setup) (count : Nat) (solution : Solution Float) : List String :=
  if solution.converged then
    ["Solution converged after " ++ toString count ++ " iterations",
      "Final tolerance: " ++ setup.number setup.tolerance, "", "Final Solution:"] ++
      valueLines setup solution.values
  else
    ["Warning: Maximum iterations (" ++ toString maxPasses ++ ") reached without convergence", "",
      "Best Estimate:"] ++ valueLines setup solution.values

def sweep (title : String) (setup : Setup) (s : System Float n) (kind : Sweep) :
    Report Float :=
  let start := sweepStart setup s kind
  match start.ending with
  | .error e => .conclude title start.entries [] (.error e) []
  | .ok arranged =>
    let run := (sweepScheme setup arranged kind).run maxPasses (Vector.replicate n 0.0)
    let result := runResult run
    let answers :=
      match result with
      | .ok solution => sweepAnswers setup run.steps.length solution
      | .error _ => []
    .conclude title (start.entries ++ runLines setup arranged run)
      (run.steps.map fun p => p.result.toList) result answers

end Stepwise.Linear
