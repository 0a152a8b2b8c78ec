/-!
# Bounded iteration

What the iterative methods share. A method says how one step is made from a state, when a step
settles the matter, and which state follows a step; `Scheme.run` makes steps until one settles, one
fails, or their number is used up.

- `Scheme`: a method
- `Run`: the steps made, and how they ended
- `Scheme.carryOut`: a run that notes its steps while it makes them
-/

namespace Stepwise

/-- A step that cannot be made. Part of it may have been made by then. -/
structure Interruption (β ε : Type) where
  cause : ε
  abandoned : Option β := none

/-- An iterative method with states `σ`, steps `β` and errors `ε`. -/
structure Scheme (σ β ε : Type) where
  /-- Makes a step, given its number, counted from one. -/
  attempt : Nat → σ → Except (Interruption β ε) β
  /-- Whether a step is the last one. -/
  settles : β → Bool
  /-- The state after a step. -/
  next : σ → β → σ

inductive Ending (σ β ε : Type) where
  | settled (last : β)
  | exhausted (state : σ)
  | interrupted (interruption : Interruption β ε)

structure Run (σ β ε : Type) where
  steps : List β
  ending : Ending σ β ε

/-- How a run ended that was not interrupted. -/
inductive Halt (σ β : Type) where
  | settled (last : β)
  | exhausted (state : σ)

/-- The state that a computation leaves, whether it has a value or fails. -/
def stateAfter {ε τ α : Type} : EStateM.Result ε τ α → τ
  | .ok _ state => state
  | .error _ state => state

def Run.prepend {σ β ε : Type} (step : β) (run : Run σ β ε) : Run σ β ε :=
  { run with steps := step :: run.steps }

namespace Scheme

variable {σ β ε : Type}

/-- Makes at most `remaining` steps, the first of them with number `count`. -/
def runFrom (scheme : Scheme σ β ε) : (count remaining : Nat) → σ → Run σ β ε
  | _, 0, state => ⟨[], .exhausted state⟩
  | count, remaining + 1, state =>
    match scheme.attempt count state with
    | .error interruption => ⟨[], .interrupted interruption⟩
    | .ok step =>
      if scheme.settles step then ⟨[step], .settled step⟩
      else (scheme.runFrom (count + 1) remaining (scheme.next state step)).prepend step

def run (scheme : Scheme σ β ε) (limit : Nat) (state : σ) : Run σ β ε :=
  scheme.runFrom 1 limit state

/-- Makes at most `remaining` steps and notes each one, given its number, in a record that outlasts
errors. Of a step that fails, the part made by then is noted. -/
def carryOut {τ : Type} (scheme : Scheme σ β ε) (note noteAbandoned : Nat → β → τ → τ) :
    (count remaining : Nat) → σ → EStateM ε τ (Halt σ β)
  | _, 0, state => return .exhausted state
  | count, remaining + 1, state =>
    match scheme.attempt count state with
    | .error interruption => do
      if let some step := interruption.abandoned then modify (noteAbandoned count step)
      throw interruption.cause
    | .ok step => do
      modify (note count step)
      if scheme.settles step then return .settled step
      scheme.carryOut note noteAbandoned (count + 1) remaining (scheme.next state step)

/-- No run has more steps than allowed. -/
theorem length_steps_runFrom_le (scheme : Scheme σ β ε) (count remaining : Nat) (state : σ) :
    (scheme.runFrom count remaining state).steps.length ≤ remaining := by
  induction remaining generalizing count state with
  | zero => exact Nat.le_refl _
  | succ remaining ih =>
    simp only [runFrom]
    split
    · exact Nat.zero_le _
    · split
      · exact Nat.succ_le_succ (Nat.zero_le _)
      · exact Nat.succ_le_succ (ih _ _)

theorem length_steps_run_le (scheme : Scheme σ β ε) (limit : Nat) (state : σ) :
    (scheme.run limit state).steps.length ≤ limit :=
  scheme.length_steps_runFrom_le 1 limit state

end Scheme

end Stepwise
