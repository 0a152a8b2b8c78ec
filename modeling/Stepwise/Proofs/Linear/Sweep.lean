import Stepwise.Proofs.Linear.Arrangement
import Stepwise.Proofs.Linear.Checking
import Stepwise.Proofs.Linear.Engine

/-!
# The iterative methods

- `Sweep.method`, `Sweep.report`: the two methods together
- `Sweep.report_of_checked`, `Sweep.report_listed`: what they leave behind for a system that passes
  the checks
-/

namespace Stepwise.Linear.Sweep

variable {kind : Sweep} {setup : Setup} {n : ℕ}

/-- The method that makes such passes. -/
def method : Sweep → Method
  | .jacobi => .jacobi
  | .gaussSeidel => .gaussSeidel

@[simp] theorem required_method : kind.method.required = 1 := by cases kind <;> rfl

/-- The report of the method. -/
def report (kind : Sweep) (setup : Setup) (s : System Float n) : Report kind.method.Value :=
  match kind with
  | .jacobi => sweep (Method.title .jacobi) setup s .jacobi
  | .gaussSeidel => sweep (Method.title .gaussSeidel) setup s .gaussSeidel

theorem report_of_checked {rows : List (List Float)} {constants : List Float}
    {s : System Float rows.length} (checked : System.check 1 rows constants = .ok s) :
    kind.method.report setup rows constants = kind.report setup s := by
  rw [Method.report, required_method, checked]
  cases kind <;> rfl

theorem report_submatrix {m : ℕ} (size : m = n) (a : Matrix (Fin n) (Fin n) Float)
    (b : Fin n → Float) :
    kind.report setup
        (.ofMatrix (a.submatrix (Fin.cast size) (Fin.cast size)) (b ∘ Fin.cast size)) =
      kind.report setup (.ofMatrix a b) := by
  subst size
  rfl

theorem report_listed {a : Matrix (Fin n) (Fin n) Float} {b : Fin n → Float} (nonempty : 0 < n)
    (coefficients : ∀ i j, (a i j).isFinite = true) (constants : ∀ i, (b i).isFinite = true) :
    kind.method.report setup (listed a) (List.ofFn b) = kind.report setup (.ofMatrix a b) := by
  rw [report_of_checked (System.check_listed (length_listed a) nonempty nonempty coefficients
    constants), report_submatrix]

end Stepwise.Linear.Sweep
