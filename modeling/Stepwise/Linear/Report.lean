import Stepwise.Linear.Error
import Stepwise.NumberFormat
import Stepwise.Outcome
import Stepwise.Trail
import Stepwise.Transcript

/-!
# The report of a solution
-/

namespace Stepwise.Linear

/-- The settings of a solution with the formats in which it writes its numbers. -/
structure Setup extends Settings where
  formats : NumberFormats := .forTolerance tolerance

def Settings.setup (settings : Settings) : Setup := { settings with }

instance : Coe Settings Setup := ⟨Settings.setup⟩

def Setup.number (setup : Setup) (x : Float) : String := setup.formats.shown.text x

structure Solution (α : Type) where
  values : List α
  converged : Bool

structure Report (α : Type) where
  transcript : Transcript
  /-- The vectors after each pass; the direct methods make none. -/
  iterations : List (List Float)
  result : Except Error (Solution α)

namespace Report

variable {α : Type}

def solution (r : Report α) : List α :=
  match r.result with
  | .ok solution => solution.values
  | .error _ => []

def error? (r : Report α) : Option Error :=
  match r.result with
  | .ok _ => none
  | .error e => some e

def outcome (r : Report α) : Outcome :=
  match r.result with
  | .ok solution => if solution.converged then .converged else .exhausted
  | .error _ => .failed

/-- Closes a solution: a failure adds its last step, a success its answers. -/
def conclude (title : String) (steps : List String) (iterations : List (List Float))
    (result : Except Error (Solution α)) (answers : List String) : Report α :=
  match result with
  | .error e =>
    { transcript := { steps := steps ++ [title ++ " cannot continue: " ++ e.message] }
      iterations, result }
  | .ok _ => { transcript := { steps, answers }, iterations, result }

/-- The report of a direct method: the trail of its steps, and its answers for the values found. -/
def ofTrail (title : String) (steps : Trail String Error (List α))
    (answers : List α → List String) : Report α :=
  match steps.ending with
  | .error e => conclude title steps.entries [] (.error e) []
  | .ok values => conclude title steps.entries [] (.ok ⟨values, true⟩) (answers values)

@[simp] theorem result_conclude (title : String) (steps : List String)
    (iterations : List (List Float)) (result : Except Error (Solution α)) (answers : List String) :
    (conclude title steps iterations result answers).result = result := by
  cases result <;> rfl

@[simp] theorem iterations_conclude (title : String) (steps : List String)
    (iterations : List (List Float)) (result : Except Error (Solution α)) (answers : List String) :
    (conclude title steps iterations result answers).iterations = iterations := by
  cases result <;> rfl

@[simp] theorem result_ofTrail (title : String) (steps : Trail String Error (List α))
    (answers : List α → List String) :
    (ofTrail title steps answers).result =
      steps.ending.map fun values => { values, converged := true } := by
  rw [ofTrail]
  cases steps.ending <;> simp [Except.map]

end Report

end Stepwise.Linear
