/-!
# Outcomes

How a solution ended. Running into the iteration limit counts as a success, since the last estimate
is still an answer.
-/

namespace Stepwise

inductive Outcome where
  /-- The test for convergence passed, or the method is exact. -/
  | converged
  /-- The iteration limit was reached; the answer is the best estimate so far. -/
  | exhausted
  /-- An error stopped the solution, and there is no answer. -/
  | failed
deriving DecidableEq, Repr

namespace Outcome

def isSuccess : Outcome → Bool
  | .failed => false
  | _ => true

def isConverged : Outcome → Bool
  | .converged => true
  | _ => false

end Outcome

end Stepwise
