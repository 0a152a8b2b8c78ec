import Stepwise.Root.Report

/-!
# The secant method

The next estimate is the zero of the chord through the two latest ones, which need not enclose a
root.
-/

namespace Stepwise.Root

structure SecantState where
  earlier : Sample
  later : Sample

structure SecantStep where
  state : SecantState
  estimate : Sample

def SecantState.chordRoot (s : SecantState) : Float :=
  s.later.point -
    (s.later.value * (s.later.point - s.earlier.point)) / (s.later.value - s.earlier.value)

variable {ε : Type}

/-- The lines of a step. The estimates are numbered from zero, the starting points included. -/
def secantLines (p : Problem ε) (count : Nat) (s : SecantStep) : List String :=
  let older := "x" ++ toString (count - 1)
  let newer := "x" ++ toString count
  let newest := "x" ++ toString (count + 1)
  let x0 := p.number s.state.earlier.point
  let x1 := p.number s.state.later.point
  let f0 := p.number s.state.earlier.value
  let f1 := p.number s.state.later.value
  ["Iteration " ++ toString count ++ ":",
    "  " ++ p.sampleText older s.state.earlier,
    "  " ++ p.sampleText newer s.state.later,
    "  " ++ newest ++ " = " ++ x1 ++ " - (" ++ f1 ++ " * (" ++ x1 ++ " - " ++ x0 ++ ")) / (" ++
      f1 ++ " - " ++ f0 ++ ") = " ++ p.number s.estimate.point,
    "  New approximation: " ++ p.sampleText newest s.estimate,
    ""]

/-- Follows chords until two estimates in a row differ by less than the tolerance. -/
def secant (p : Problem ε) : Rule SecantState SecantStep ε where
  attempt _ state :=
    if state.later.value == state.earlier.value then
      .error { cause := .equalValues state.earlier state.later }
    else
      match p.sample state.chordRoot with
      | .error cause => .error { cause }
      | .ok estimate => .ok { state, estimate }
  settles step := (step.estimate.point - step.state.later.point).abs < p.settings.tolerance
  next state step := ⟨state.later, step.estimate⟩
  estimate step := step.estimate.point
  best state := state.later.point
  lines := secantLines p

def secantStart (p : Problem ε) (x0 x1 : Float) : Trail String (Error ε) SecantState := do
  let (earlier, later) ← p.openingSamples "x0" "x1" x0 x1
  return { earlier, later }

end Stepwise.Root
