import Stepwise.Iteration
import Stepwise.Outcome
import Stepwise.Root.Problem
import Stepwise.Transcript

/-!
# The report of a root search

- `Rule`: an iterative method with what it records and writes
- `Report`: what a search leaves behind
- `Rule.report`: carries a search out
-/

namespace Stepwise.Root

structure Finding where
  root : Float
  converged : Bool

structure Report (ε : Type) where
  transcript : Transcript
  /-- The estimates of the completed iterations. -/
  iterations : List Float
  result : Except (Error ε) Finding

namespace Report

variable {ε : Type}

def root? (r : Report ε) : Option Float :=
  match r.result with
  | .ok finding => some finding.root
  | .error _ => none

def error? (r : Report ε) : Option (Error ε) :=
  match r.result with
  | .ok _ => none
  | .error e => some e

def outcome (r : Report ε) : Outcome :=
  match r.result with
  | .ok finding => if finding.converged then .converged else .exhausted
  | .error _ => .failed

/-- Closes a search: a failure adds its last step, a success its answers. -/
def conclude [ToString ε] (title : String) (number : Float → String) (tolerance : Float)
    (steps : List String) (iterations : List Float) (result : Except (Error ε) Finding) :
    Report ε :=
  match result with
  | .error e =>
    { transcript := { steps := steps ++ [title ++ " cannot continue: " ++ e.message] }
      iterations, result }
  | .ok finding =>
    { transcript := {
        steps
        answers := [
          "Root found: " ++ number finding.root,
          "Number of iterations: " ++ toString iterations.length,
          "Final tolerance: " ++ number tolerance] }
      iterations, result }

def refused [ToString ε] (title : String) (e : Error ε) : Report ε where
  transcript := { steps := [title ++ " cannot continue: " ++ e.message] }
  iterations := []
  result := .error e

end Report

/-- An iterative method with what it records and writes. -/
structure Rule (σ β ε : Type) extends Scheme σ β (Error ε) where
  /-- The estimate of a completed step. -/
  estimate : β → Float
  /-- The best estimate in a state. -/
  best : σ → Float
  /-- The lines of a step, given its number. -/
  lines : Nat → β → List String
  /-- The lines of a step that was given up. -/
  abandonedLines : Nat → β → List String := fun _ _ => []
  /-- What is remarked on the last step before convergence is announced. -/
  remarks : β → List String := fun _ => []

namespace Rule

variable {σ β ε : Type}

def stepLines (rule : Rule σ β ε) (steps : List β) : List String :=
  (steps.mapIdx fun i step => rule.lines (i + 1) step).flatten

def closingLines (rule : Rule σ β ε) (run : Run σ β (Error ε)) : List String :=
  match run.ending with
  | .settled last => rule.remarks last ++ ["Convergence achieved!"]
  | .exhausted _ => ["Maximum iterations reached without convergence."]
  | .interrupted interruption =>
    match interruption.abandoned with
    | some step => rule.abandonedLines (run.steps.length + 1) step
    | none => []

def finding (rule : Rule σ β ε) (run : Run σ β (Error ε)) : Except (Error ε) Finding :=
  match run.ending with
  | .settled last => .ok ⟨rule.estimate last, true⟩
  | .exhausted state => .ok ⟨rule.best state, false⟩
  | .interrupted interruption => .error interruption.cause

/-- Carries a search out from a state that may itself fail to be reached. -/
def report [ToString ε] (rule : Rule σ β ε) (p : Problem ε) (title : String)
    (start : Trail String (Error ε) σ) : Report ε :=
  let opening := p.opening ++ start.entries
  match start.ending with
  | .error e => .conclude title p.number p.settings.tolerance opening [] (.error e)
  | .ok state =>
    let run := rule.run p.settings.maxIterations state
    .conclude title p.number p.settings.tolerance
      (opening ++ rule.stepLines run.steps ++ rule.closingLines run)
      (run.steps.map rule.estimate) (rule.finding run)

end Rule

end Stepwise.Root
