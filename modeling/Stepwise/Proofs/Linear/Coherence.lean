import Stepwise.Linear.Solver
import Stepwise.Proofs.Iteration
import Stepwise.Proofs.Linear.Arrangement
import Stepwise.Proofs.Linear.Checking

/-!
# Reports of linear systems agree with themselves

Whatever a solver is given and however it ends, the parts of its report tell the same story.

- `Report.Coherent`: what is asked of the parts of every report
- `Report.Accounts`: what is asked of the passes of an iteration
- `Report.coherent_ofTrail`, `coherent_sweep`: direct methods and iterations leave such a report
- `coherent_of_solve`: so does each call of a solver
-/

namespace Stepwise.Linear

variable {α β ε : Type}

/-! ## Coherent reports -/

/-- The parts of a report on `n` equations agree with each other. -/
structure Report.Coherent (r : Report α) (title : String) (n : Nat) : Prop where
  failed_iff_error : r.outcome = .failed ↔ r.error?.isSome = true
  failed_iff_solution : r.outcome = .failed ↔ r.solution = []
  failed_iff_answers : r.outcome = .failed ↔ r.transcript.answers = []
  failure : ∀ e, r.error? = some e →
    r.transcript.steps.getLast? = some (title ++ " cannot continue: " ++ e.message)
  success : r.outcome ≠ .failed → r.solution.length = n

/-- The passes of an iteration on `n` equations account for its end. -/
structure Report.Accounts (r : Report Float) (n : Nat) : Prop where
  shape : ∀ pass ∈ r.iterations, pass.length = n ∧ ∀ value ∈ pass, value.isFinite = true
  bounded : r.iterations.length ≤ 1000
  success : r.outcome ≠ .failed → r.iterations.getLast? = some r.solution
  converged : r.outcome = .converged → r.transcript.answers.head? =
    some ("Solution converged after " ++ toString r.iterations.length ++ " iterations")
  exhausted : r.outcome = .exhausted → r.iterations.length = 1000
  diverged : ∀ count, r.error? = some (.diverged count) → r.iterations.length + 1 = count
  refused : ∀ e, r.error? = some e → (∀ count, e ≠ .diverged count) → r.iterations = []

section

variable {title : String} {n : Nat} {steps answers : List String} {iterations : List (List Float)}

theorem Report.coherent_conclude_error (e : Error) :
    (conclude title steps iterations (.error e) answers : Report α).Coherent title n where
  failed_iff_error := by simp [outcome, error?]
  failed_iff_solution := by simp [outcome, solution]
  failed_iff_answers := by simp [outcome, conclude]
  failure := by simp [error?, conclude]
  success := by simp [outcome]

theorem Report.coherent_conclude_ok {solution : Solution α} (nonempty : 0 < n)
    (length : solution.values.length = n) (answered : answers ≠ []) :
    (conclude title steps iterations (.ok solution) answers).Coherent title n := by
  have values : solution.values ≠ [] := List.length_pos_iff.1 (length ▸ nonempty)
  have succeeded :
      (conclude title steps iterations (.ok solution) answers).outcome ≠ .failed := by
    simp only [outcome, result_conclude]
    split <;> simp
  exact {
    failed_iff_error := iff_of_false succeeded (by simp [error?])
    failed_iff_solution := iff_of_false succeeded (by simpa [Report.solution] using values)
    failed_iff_answers := iff_of_false succeeded answered
    failure := by simp [error?]
    success := fun _ => by simpa [Report.solution] using length }

/-- Passes have nothing to account for when an iteration is refused before the first one. -/
theorem Report.accounts_conclude_refused {e : Error} (other : ∀ count, e ≠ .diverged count) :
    (conclude title steps [] (.error e) answers).Accounts n where
  shape := by simp [conclude]
  bounded := by simp [conclude]
  success := by simp [outcome]
  converged := by simp [outcome]
  exhausted := by simp [outcome]
  diverged := fun count same => by simp [error?, other count] at same
  refused := fun _ _ _ => rfl

theorem Report.accounts_conclude_ok {solution : Solution Float}
    (shape : ∀ pass ∈ iterations, pass.length = n ∧ ∀ value ∈ pass, value.isFinite = true)
    (bounded : iterations.length ≤ 1000) (success : iterations.getLast? = some solution.values)
    (converged : solution.converged = true → answers.head? =
      some ("Solution converged after " ++ toString iterations.length ++ " iterations"))
    (exhausted : solution.converged = false → iterations.length = 1000) :
    (conclude title steps iterations (.ok solution) answers).Accounts n where
  shape := shape
  bounded := bounded
  success := fun _ => success
  converged := by
    cases settled : solution.converged with
    | false => simp [outcome, settled]
    | true => exact fun _ => converged settled
  exhausted := by
    cases settled : solution.converged with
    | false => exact fun _ => exhausted settled
    | true => simp [outcome, settled]
  diverged := by simp [error?]
  refused := by simp [error?]

theorem Report.accounts_conclude_diverged
    (shape : ∀ pass ∈ iterations, pass.length = n ∧ ∀ value ∈ pass, value.isFinite = true)
    (bounded : iterations.length ≤ 1000) :
    (conclude title steps iterations (.error (.diverged (iterations.length + 1))) answers).Accounts
      n where
  shape := shape
  bounded := bounded
  success := by simp [outcome]
  converged := by simp [outcome]
  exhausted := by simp [outcome]
  diverged := fun count same => by
    cases same
    rfl
  refused := fun e same other => by
    cases same
    exact absurd rfl (other _)

end

/-! ## Direct methods -/

variable {n : Nat}

theorem length_of_cramerSteps {s : System Fraction n} {det : Fraction} {columns : List (Fin n)}
    {values : List Fraction} (ended : (cramerSteps s det columns).ending = .ok values) :
    values.length = columns.length := by
  induction columns generalizing values with
  | nil =>
    cases ended
    rfl
  | cons column columns ih =>
    simp only [cramerSteps, Trail.ending_bind_eq_ok_iff] at ended
    obtain ⟨step, -, -, -, rest, later, same⟩ := ended
    cases same
    exact congrArg Nat.succ (ih later)

theorem length_of_cramerTrail {settings : Settings} {s : System Float n} {values : List Fraction}
    (ended : (cramerTrail settings s).ending = .ok values) : values.length = n := by
  simp only [cramerTrail, Trail.ending_bind_eq_ok_iff] at ended
  obtain ⟨exact, -, -, -, -, -, -, -, rest⟩ := ended
  split at rest
  next => cases rest
  next =>
    rw [Trail.ending_expand] at rest
    rw [length_of_cramerSteps rest, List.length_finRange]

theorem length_of_gaussianTrail {settings : Settings} {s : System Float n} {values : List Fraction}
    (ended : (gaussianTrail settings s).ending = .ok values) : values.length = n := by
  simp only [gaussianTrail, Trail.ending_bind_eq_ok_iff] at ended
  obtain ⟨exact, -, -, -, triangular, -, -, -, solution, -, same⟩ := ended
  cases same
  exact solution.length_toList

/-- The report of a direct method is coherent and never that of an unsettled iteration. -/
theorem Report.coherent_ofTrail {title : String} {steps : Trail String Error (List α)}
    {answers : List α → List String} (nonempty : 0 < n)
    (length : ∀ values, steps.ending = .ok values → values.length = n)
    (answered : ∀ values, values ≠ [] → answers values ≠ []) :
    (ofTrail title steps answers).Coherent title n ∧
      (ofTrail title steps answers).outcome ≠ .exhausted := by
  rw [ofTrail]
  cases ended : steps.ending with
  | error e => exact ⟨coherent_conclude_error e, by simp [outcome]⟩
  | ok values =>
    have same := length values ended
    have found : values ≠ [] := List.length_pos_iff.1 (same ▸ nonempty)
    exact ⟨coherent_conclude_ok nonempty same (answered values found), by simp [outcome]⟩

/-! ## Iterations -/

theorem sweepStart_ne_diverged {setup : Setup} {s : System Float n} {kind : Sweep}
    {iteration : Nat} : (sweepStart setup s kind).ending ≠ .error (.diverged iteration) := by
  rw [ending_sweepStart]
  split <;> simp

section

variable {setup : Setup} {s : System Float n} {kind : Sweep} {count : Nat}
  {previous : Vector Float n}

theorem attempt_eq_ok_iff {p : Pass n} :
    (sweepScheme setup s kind).attempt count previous = .ok p ↔
      pass s kind previous = p ∧ (pass s kind previous).isFinite = true := by
  dsimp only [sweepScheme]
  split
  next finite => simp [finite]
  next infinite => simp [infinite]

theorem attempt_eq_error_iff {interruption : Interruption (Pass n) Error} :
    (sweepScheme setup s kind).attempt count previous = .error interruption ↔
      { cause := .diverged count, abandoned := some (pass s kind previous) } = interruption ∧
        (pass s kind previous).isFinite = false := by
  dsimp only [sweepScheme]
  split
  next finite => simp [finite]
  next infinite => simpa using fun _ => infinite

/-- Once an iteration has started, all that can stop it is a pass that is not finite. -/
theorem exists_diverged_of_runResult {remaining : Nat} {cause : Error}
    (failed : runResult ((sweepScheme setup s kind).runFrom count remaining previous) =
      .error cause) :
    ∃ number, cause = .diverged number := by
  have goes := (sweepScheme setup s kind).goes_runFrom count remaining previous
  generalize (sweepScheme setup s kind).runFrom count remaining previous = run at failed goes
  cases goes with
  | settled | exhausted => cases failed
  | interrupted _ stopped =>
    obtain ⟨rfl, -⟩ := attempt_eq_error_iff.1 stopped
    cases failed
    exact ⟨_, rfl⟩

end

theorem shape_of_goes {setup : Setup} {s : System Float n} {kind : Sweep}
    {count remaining : Nat} {previous : Vector Float n}
    {run : Run (Vector Float n) (Pass n) Error}
    (goes : (sweepScheme setup s kind).Goes count remaining previous run) :
    ∀ pass ∈ run.steps.map fun p => p.result.toList,
      pass.length = n ∧ ∀ value ∈ pass, value.isFinite = true := by
  refine List.forall_mem_map.2 fun p inside => ?_
  obtain ⟨_, _, made⟩ := goes.exists_attempt p inside
  obtain ⟨rfl, finite⟩ := attempt_eq_ok_iff.1 made
  exact ⟨Vector.length_toList, List.all_eq_true.1 finite⟩

theorem getLast?_of_path {setup : Setup} {s : System Float n} {kind : Sweep} {count : Nat}
    {previous final : Vector Float n} {steps : List (Pass n)}
    (path : (sweepScheme setup s kind).Path count previous steps final)
    (made : steps ≠ []) :
    (steps.map fun p => p.result.toList).getLast? = some final.toList := by
  have latest : final.toList = (steps.map fun p => p.result.toList).getLastD previous.toList :=
    path.view_final fun _ _ => rfl
  cases steps with
  | nil => exact absurd rfl made
  | cons =>
    rw [latest, List.map_cons, List.getLast?_cons, List.getLastD_cons, List.getLastD_eq_getLast?]

/-- The report of an iteration is coherent, and its passes account for its end. -/
theorem coherent_sweep (title : String) (setup : Setup) (s : System Float n) (kind : Sweep)
    (nonempty : 0 < n) :
    (sweep title setup s kind).Coherent title n ∧ (sweep title setup s kind).Accounts n := by
  rw [sweep]
  cases started : (sweepStart setup s kind).ending with
  | error e =>
    refine ⟨Report.coherent_conclude_error e, Report.accounts_conclude_refused ?_⟩
    rintro count rfl
    exact sweepStart_ne_diverged started
  | ok arranged =>
    dsimp only
    have goes := (sweepScheme setup arranged kind).goes_run maxPasses (Vector.replicate n 0.0)
    have within := (sweepScheme setup arranged kind).length_steps_run_le maxPasses
      (Vector.replicate n 0.0)
    generalize (sweepScheme setup arranged kind).run maxPasses _ = run at goes within
    have bounded : (run.steps.map fun p => p.result.toList).length ≤ 1000 :=
      (List.length_map _).trans_le within
    have shape := shape_of_goes goes
    cases goes with
    | @settled steps _ last _ _ _ _ =>
      simp only [runResult]
      refine ⟨Report.coherent_conclude_ok nonempty ?_ (by simp [sweepAnswers]), ?_⟩
      · exact last.result.length_toList
      · exact Report.accounts_conclude_ok shape bounded (by simp)
          (fun _ => by simp [sweepAnswers]) nofun
    | @exhausted steps final path all =>
      have made : steps ≠ [] := List.length_pos_iff.1 (all ▸ Nat.zero_lt_succ _)
      simp only [runResult]
      refine ⟨Report.coherent_conclude_ok nonempty ?_ (by simp [sweepAnswers]), ?_⟩
      · exact final.length_toList
      · exact Report.accounts_conclude_ok shape bounded (getLast?_of_path path made) nofun
          fun _ => (List.length_map _).trans all
    | @interrupted steps _ _ _ failed _ =>
      have number : 1 + steps.length = (steps.map fun p => p.result.toList).length + 1 := by
        rw [List.length_map, Nat.add_comm]
      obtain ⟨rfl, -⟩ := attempt_eq_error_iff.1 failed
      simp only [runResult, number]
      exact ⟨Report.coherent_conclude_error _, Report.accounts_conclude_diverged shape bounded⟩

/-! ## All methods -/

/-- What else is asked of a report: a direct method does not run out of iterations, and the passes
of the others account for their end. -/
def Method.Accounts (method : Method) (r : Report method.Value) (n : Nat) : Prop :=
  match method, r with
  | .cramer, r | .gaussian, r => r.outcome ≠ .exhausted
  | .jacobi, r | .gaussSeidel, r => r.Accounts n

variable {method : Method}

theorem Method.coherent_of_refused {e : Error} {n : Nat} (other : ∀ count, e ≠ .diverged count) :
    let r : Report method.Value := .conclude method.title [] [] (.error e) []
    r.Coherent method.title n ∧ method.Accounts r n := by
  refine ⟨Report.coherent_conclude_error e, ?_⟩
  cases method with
  | cramer => simp [Accounts, Report.outcome]
  | gaussian => simp [Accounts, Report.outcome]
  | jacobi => exact Report.accounts_conclude_refused other
  | gaussSeidel => exact Report.accounts_conclude_refused other

theorem Method.coherent_report (method : Method) (settings : Settings) (rows : List (List Float))
    (constants : List Float) :
    (method.report settings rows constants).Coherent method.title rows.length ∧
      method.Accounts (method.report settings rows constants) rows.length := by
  rw [report]
  cases checked : System.check method.required rows constants with
  | error e =>
    refine coherent_of_refused ?_
    rintro count rfl
    cases System.flaw_of_check checked
  | ok s =>
    have nonempty : 0 < rows.length :=
      List.length_pos_iff.2 (System.check_eq_ok_iff.1 checked).1
    cases method with
    | cramer =>
      exact Report.coherent_ofTrail nonempty (fun _ => length_of_cramerTrail) fun values found => by
        simpa [cramerAnswers] using found
    | gaussian =>
      exact Report.coherent_ofTrail nonempty (fun _ => length_of_gaussianTrail) fun _ _ => by
        simp [gaussianAnswers]
    | jacobi => exact coherent_sweep _ settings s .jacobi nonempty
    | gaussSeidel => exact coherent_sweep _ settings s .gaussSeidel nonempty

/-! ## Solvers -/

/-- A call on these rows has left a coherent report. -/
def Solver.Reports (after : Solver method) (rows : List (List Float)) : Prop :=
  ∃ r, after.report? = some r ∧ r.Coherent method.title rows.length ∧
    method.Accounts r rows.length

/-- Whatever a solver has been through, each of its calls leaves a coherent report. -/
theorem coherent_of_solve (solver : Solver method) (rows : List (List Float))
    (constants : List Float) :
    (solver.solve rows constants).Reports rows ∧
      ∀ tolerance, (solver.solveWithTolerance rows constants tolerance).Reports rows := by
  refine ⟨⟨_, rfl, method.coherent_report _ rows constants⟩, fun tolerance => ?_⟩
  cases accepted : isTolerance tolerance with
  | false =>
    rw [Solver.solveWithTolerance_of_refused accepted]
    exact ⟨_, rfl, Method.coherent_of_refused nofun⟩
  | true =>
    rw [Solver.solveWithTolerance_of_accepted accepted]
    exact ⟨_, rfl, method.coherent_report _ rows constants⟩

end Stepwise.Linear
