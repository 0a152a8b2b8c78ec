import Mathlib
import Stepwise.Proofs.Root.Engine

/-!
# Searches that fail at once

What a search needs is tested at its start, or in its first iteration, of which there may be none.

- `Report.FailsAtOnce`, `Report.GivesUpAtOnce`: a search that fails, or reaches the limit, before an
  iteration is completed
- `Problem.Rejected`: a formula without values
- `failsAtOnce_iff`: which searches fail at once
-/

namespace Stepwise.Root

variable {ε σ β : Type}

/-! ## Reports without iterations -/

/-- A search that fails before an iteration is completed. -/
structure Report.FailsAtOnce (r : Report ε) (cause : Error ε) : Prop where
  result : r.result = .error cause
  iterations : r.iterations = []
  answers : r.transcript.answers = []

/-- A search that reaches the limit before an iteration is completed. -/
structure Report.GivesUpAtOnce (r : Report ε) (root : Float) : Prop where
  result : r.result = .ok ⟨root, false⟩
  iterations : r.iterations = []

namespace Rule

variable [ToString ε] {rule : Rule σ β ε} {p : Problem ε} {title : String}
  {start : Trail String (Error ε) σ} {state : σ}

/-- A start that fails leaves its error. -/
theorem failsAtOnce_of_start {cause : Error ε} (ended : start.ending = .error cause) :
    (rule.report p title start).FailsAtOnce cause := by
  rw [report, ended]
  exact ⟨rfl, rfl, rfl⟩

/-- So does a first iteration that fails, if there is one. -/
theorem failsAtOnce_of_attempt {interruption : Interruption β (Error ε)}
    (ended : start.ending = .ok state) (failed : rule.attempt 1 state = .error interruption)
    (limit : p.settings.maxIterations ≠ 0) :
    (rule.report p title start).FailsAtOnce interruption.cause := by
  have run : rule.run p.settings.maxIterations state = ⟨[], .interrupted interruption⟩ := by
    rw [Scheme.run, ← Nat.succ_pred_eq_of_ne_zero limit, Scheme.runFrom, failed]
  rw [report, ended]
  dsimp only
  rw [run]
  exact ⟨rfl, rfl, rfl⟩

/-- Without iterations, the estimate is the one at the start. -/
theorem givesUpAtOnce (ended : start.ending = .ok state) (limit : p.settings.maxIterations = 0) :
    (rule.report p title start).GivesUpAtOnce (rule.best state) := by
  have run : rule.run p.settings.maxIterations state = ⟨[], .exhausted state⟩ := by
    rw [limit]
    rfl
  rw [report, ended]
  dsimp only
  rw [run]
  exact ⟨rfl, rfl⟩

end Rule

/-! ## Formulas without values -/

/-- A formula that has no value anywhere. -/
def Problem.Rejected (p : Problem ε) : Prop :=
  ∀ x, ∃ cause, p.evaluator p.formula p.settings.variableName x = .error cause

variable {p : Problem ε}

namespace Problem.Rejected

theorem sample (rejected : p.Rejected) (x : Float) :
    ∃ cause, p.sample x = .error (.evaluation x cause) := by
  obtain ⟨cause, failed⟩ := rejected x
  exact ⟨cause, by rw [Problem.sample, failed]⟩

theorem openingSamples (rejected : p.Rejected) (nameA nameB : String) (a b : Float) :
    ∃ cause, (p.openingSamples nameA nameB a b).ending = .error (.evaluation a cause) := by
  obtain ⟨cause, failed⟩ := rejected.sample a
  exact ⟨cause, Trail.ending_bind_of_error _ failed⟩

theorem bracketStart (rejected : p.Rejected) (a b : Float) :
    ∃ cause, (bracketStart p a b).ending = .error (.evaluation a cause) := by
  obtain ⟨cause, failed⟩ := rejected.openingSamples "a" "b" a b
  exact ⟨cause, Trail.ending_bind_of_error _ failed⟩

theorem secantStart (rejected : p.Rejected) (x0 x1 : Float) :
    ∃ cause, (secantStart p x0 x1).ending = .error (.evaluation x0 cause) := by
  obtain ⟨cause, failed⟩ := rejected.openingSamples "x0" "x1" x0 x1
  exact ⟨cause, Trail.ending_bind_of_error _ failed⟩

theorem fixedPointStart (rejected : p.Rejected) (x0 : Float) :
    ∃ cause, (fixedPointStart p x0).ending = .error (.evaluation (x0 + slopeStep) cause) := by
  obtain ⟨cause, failed⟩ := rejected.sample (x0 + slopeStep)
  exact ⟨cause, Trail.ending_bind_of_error _ failed⟩

theorem attempt_newtonRaphson (rejected : p.Rejected) (count : Nat) (x : Float) :
    ∃ cause, (newtonRaphson p).attempt count x = .error { cause := .evaluation x cause } := by
  obtain ⟨cause, failed⟩ := rejected.sample x
  have stuck : tangent p x = .error (.evaluation x cause) := by
    rw [tangent, failed]
    rfl
  exact ⟨cause, by simp only [newtonRaphson, stuck]⟩

end Problem.Rejected

theorem ending_newtonStart_eq (x0 : Float) : (newtonStart p x0).ending = .ok x0 := rfl

/-- No method completes an iteration on a formula without values. It fails, unless it is the
Newton-Raphson method and makes no iteration. -/
theorem Method.failsAtOnce_of_rejected [ToString ε] {method : Method} (rejected : p.Rejected)
    (attempts : ¬ (method = .newtonRaphson ∧ p.settings.maxIterations = 0))
    (start : method.Start) :
    ∃ x cause, (method.report p start).FailsAtOnce (.evaluation x cause) := by
  cases method with
  | bisection =>
    obtain ⟨a, b⟩ := start
    obtain ⟨cause, failed⟩ := rejected.bracketStart a b
    exact ⟨a, cause, Rule.failsAtOnce_of_start failed⟩
  | falsePosition =>
    obtain ⟨a, b⟩ := start
    obtain ⟨cause, failed⟩ := rejected.bracketStart a b
    exact ⟨a, cause, Rule.failsAtOnce_of_start failed⟩
  | secant =>
    obtain ⟨x0, x1⟩ := start
    obtain ⟨cause, failed⟩ := rejected.secantStart x0 x1
    exact ⟨x0, cause, Rule.failsAtOnce_of_start failed⟩
  | newtonRaphson =>
    obtain ⟨cause, failed⟩ := rejected.attempt_newtonRaphson 1 start
    have limit : p.settings.maxIterations ≠ 0 := fun none => attempts ⟨rfl, none⟩
    exact ⟨start, cause, Rule.failsAtOnce_of_attempt (ending_newtonStart_eq start) failed limit⟩
  | fixedPoint =>
    obtain ⟨cause, failed⟩ := rejected.fixedPointStart start
    exact ⟨start + slopeStep, cause, Rule.failsAtOnce_of_start failed⟩

/-! ## Level chords -/

theorem attempt_secant_of_level {count : Nat} {state : SecantState}
    (level : (state.later.value == state.earlier.value) = true) :
    (secant p).attempt count state =
      .error { cause := .equalValues state.earlier state.later } := by
  simp only [secant, level]
  rfl

/-! ## Searches -/

namespace Engine

variable {method : Method}

/-- A search that fails before an iteration is completed. -/
structure FailsAtOnce (r : Outcome × Engine method ε) (cause : Error ε) : Prop where
  outcome : r.1 = .failed
  error : r.2.error? = some cause
  iterations : r.2.iterations = []
  answers : r.2.transcript.answers = []

/-- A search that reaches the limit before an iteration is completed. -/
structure GivesUpAtOnce (r : Outcome × Engine method ε) (root : Float) : Prop where
  outcome : r.1 = .exhausted
  root : r.2.root? = some root
  iterations : r.2.iterations = []

theorem GivesUpAtOnce.not_failsAtOnce {r : Outcome × Engine method ε} {root : Float}
    {cause : Error ε} (givesUp : GivesUpAtOnce r root) : ¬ FailsAtOnce r cause := by
  intro fails
  have outcome := givesUp.outcome
  rw [fails.outcome] at outcome
  cases outcome

variable {e : Engine method ε} {r : Report ε}

theorem failsAtOnce_showing {cause : Error ε} (fails : r.FailsAtOnce cause) :
    FailsAtOnce (r.outcome, e.showing r) cause where
  outcome := by rw [Report.outcome, fails.result]
  error := by
    change r.error? = some cause
    rw [Report.error?, fails.result]
  iterations := fails.iterations
  answers := fails.answers

theorem givesUpAtOnce_showing {root : Float} (givesUp : r.GivesUpAtOnce root) :
    GivesUpAtOnce (r.outcome, e.showing r) root where
  outcome := by
    rw [Report.outcome, givesUp.result]
    rfl
  root := by
    change r.root? = some root
    rw [Report.root?, givesUp.result]
  iterations := givesUp.iterations

/-- The evaluator has no value for a formula anywhere. -/
def Rejects (e : Engine method ε) (formula : String) : Prop :=
  ∀ x, ∃ cause, e.evaluator formula e.settings.variableName x = .error cause

/-- The evaluator has the same finite value for a formula at two points. -/
structure IsLevel (e : Engine method ε) (formula : String) (earlier later : Sample) : Prop where
  first : e.evaluator formula e.settings.variableName earlier.point = .ok earlier.value
  second : e.evaluator formula e.settings.variableName later.point = .ok later.value
  first_isFinite : earlier.value.isFinite = true
  second_isFinite : later.value.isFinite = true
  same : (later.value == earlier.value) = true

theorem IsLevel.ending_secantStart {e : Engine .secant ε} {formula : String}
    {earlier later : Sample} (level : e.IsLevel formula earlier later)
    {tolerance? : Option Float} :
    (secantStart (e.opened formula tolerance?).problem earlier.point later.point).ending =
      .ok ⟨earlier, later⟩ := by
  have first : (e.opened formula tolerance?).problem.sample earlier.point = .ok earlier := by
    simp [Problem.sample, level.first, level.first_isFinite]
  have second : (e.opened formula tolerance?).problem.sample later.point = .ok later := by
    simp [Problem.sample, level.second, level.second_isFinite]
  rw [secantStart, Problem.openingSamples, first, second]
  rfl

section

variable [ToString ε] {formula : String} {tolerance? : Option Float}
  (accepted : tolerance?.all isTolerance = true)

include accepted

theorem exists_failsAtOnce_of_rejects (rejects : e.Rejects formula)
    (attempts : ¬ (method = .newtonRaphson ∧ e.settings.maxIterations = 0))
    (start : method.Start) :
    ∃ x cause, FailsAtOnce (e.solve formula start tolerance?) (.evaluation x cause) := by
  have rejected : (e.opened formula tolerance?).problem.Rejected := by
    simpa [Problem.Rejected, Rejects] using rejects
  rw [← maxIterations_opened formula tolerance?] at attempts
  obtain ⟨x, cause, fails⟩ := Method.failsAtOnce_of_rejected rejected attempts start
  rw [solve_of_all_accepted accepted]
  exact ⟨x, cause, failsAtOnce_showing fails⟩

theorem givesUpAtOnce_newtonRaphson {e : Engine .newtonRaphson ε} {x0 : Float}
    (limit : e.settings.maxIterations = 0) :
    GivesUpAtOnce (e.solve formula x0 tolerance?) x0 := by
  rw [← maxIterations_opened formula tolerance?] at limit
  rw [solve_of_all_accepted accepted]
  exact givesUpAtOnce_showing (Rule.givesUpAtOnce (ending_newtonStart_eq x0) limit)

variable {e : Engine .secant ε} {earlier later : Sample}

theorem failsAtOnce_of_isLevel (level : e.IsLevel formula earlier later)
    (limit : e.settings.maxIterations ≠ 0) :
    FailsAtOnce (e.solve formula (earlier.point, later.point) tolerance?)
      (.equalValues earlier later) := by
  rw [← maxIterations_opened formula tolerance?] at limit
  rw [solve_of_all_accepted accepted]
  exact failsAtOnce_showing (Rule.failsAtOnce_of_attempt level.ending_secantStart
    (attempt_secant_of_level level.same) limit)

theorem givesUpAtOnce_of_isLevel (level : e.IsLevel formula earlier later)
    (limit : e.settings.maxIterations = 0) :
    GivesUpAtOnce (e.solve formula (earlier.point, later.point) tolerance?) later.point := by
  rw [← maxIterations_opened formula tolerance?] at limit
  rw [solve_of_all_accepted accepted]
  exact givesUpAtOnce_showing (Rule.givesUpAtOnce level.ending_secantStart limit)

end

end Engine

/-- A formula without values makes a search fail at once, and so does a level chord at the start of
the secant method. The exceptions are the Newton-Raphson method and the secant method without
iterations, which answer with their starting point. -/
theorem failsAtOnce_iff (ε : Type) [ToString ε] (tolerance? : Option Float)
    (accepted : tolerance?.all isTolerance = true) :
    (∀ (method : Method) (e : Engine method ε) (formula : String) (start : method.Start),
      e.Rejects formula →
        ((∃ x cause, Engine.FailsAtOnce (e.solve formula start tolerance?)
            (.evaluation x cause)) ↔
          ¬ (method = .newtonRaphson ∧ e.settings.maxIterations = 0))) ∧
    (∀ (e : Engine .newtonRaphson ε) (formula : String) (x0 : Float),
      e.settings.maxIterations = 0 →
        Engine.GivesUpAtOnce (e.solve formula x0 tolerance?) x0) ∧
    (∀ (e : Engine .secant ε) (formula : String) (earlier later : Sample),
      e.IsLevel formula earlier later →
        (Engine.FailsAtOnce (e.solve formula (earlier.point, later.point) tolerance?)
            (.equalValues earlier later) ↔ e.settings.maxIterations ≠ 0) ∧
          (e.settings.maxIterations = 0 → Engine.GivesUpAtOnce
            (e.solve formula (earlier.point, later.point) tolerance?) later.point)) ∧
    ∀ source variableName cause, Formula.parse source variableName = .error cause →
      ∀ x, Formula.evaluator source variableName x = .error cause := by
  refine ⟨fun method e formula start rejects => ⟨?_, fun attempts => ?_⟩,
    fun e formula x0 limit => Engine.givesUpAtOnce_newtonRaphson accepted limit,
    fun e formula earlier later level => ⟨⟨?_, fun limit => ?_⟩, fun limit => ?_⟩,
    fun source variableName cause unread x => ?_⟩
  · rintro ⟨x, cause, fails⟩ ⟨rfl, limit⟩
    exact (Engine.givesUpAtOnce_newtonRaphson accepted limit).not_failsAtOnce fails
  · exact Engine.exists_failsAtOnce_of_rejects accepted rejects attempts start
  · intro fails limit
    exact (Engine.givesUpAtOnce_of_isLevel accepted level limit).not_failsAtOnce fails
  · exact Engine.failsAtOnce_of_isLevel accepted level limit
  · exact Engine.givesUpAtOnce_of_isLevel accepted level limit
  · rw [Formula.evaluator, unread]
    rfl

theorem parse_unread : Formula.parse "x+" "x" = .error (.leftover "+") := by cbv

theorem rejects_unread {method : Method} (limit : Nat) :
    (Engine.make { maxIterations := limit } Formula.evaluator : Engine method _).Rejects
      "x+" := by
  refine fun x => ⟨.leftover "+", ?_⟩
  change Formula.evaluator "x+" "x" x = _
  rw [Formula.evaluator, parse_unread]
  rfl

theorem isLevel_square (limit : Nat) :
    (Engine.make { maxIterations := limit } Formula.evaluator : Engine .secant _).IsLevel "x*x"
      ⟨-1.0, 1.0⟩ ⟨1.0, 1.0⟩ := by
  have parsed : Formula.parse "x*x" "x" =
      .ok ⟨"x*x", "x", .binary .multiply .variable .variable⟩ := by cbv
  have value (x : Float) : Formula.evaluator "x*x" "x" x = .ok (x * x) := by
    rw [Formula.evaluator, parsed]
    rfl
  exact ⟨value (-1.0), value 1.0, by decide +kernel, by decide +kernel, by decide +kernel⟩

/-- Whatever the limit, bisection fails at once on a text that is no formula; the secant method does
so on a level chord if it makes one iteration. -/
theorem failsAtOnce_unread :
    let e : Engine .bisection Formula.Error := .make { maxIterations := 0 } Formula.evaluator
    let e' : Engine .secant Formula.Error := .make { maxIterations := 1 } Formula.evaluator
    (some 0.5).all isTolerance = true ∧ e.Rejects "x+" ∧
      (∃ x cause, Engine.FailsAtOnce
        (e.solve "x+" ((1.0, 2.0) : Float × Float) (some 0.5)) (.evaluation x cause)) ∧
      e'.IsLevel "x*x" ⟨-1.0, 1.0⟩ ⟨1.0, 1.0⟩ ∧
      Engine.FailsAtOnce (e'.solve "x*x" ((-1.0, 1.0) : Float × Float) (some 0.5))
        (.equalValues ⟨-1.0, 1.0⟩ ⟨1.0, 1.0⟩) := by
  intro e e'
  have accepted : (some 0.5).all isTolerance = true := by decide +kernel
  obtain ⟨rejected, -, level, -⟩ := failsAtOnce_iff Formula.Error (some 0.5) accepted
  have fails := (rejected .bisection e "x+" (1.0, 2.0) (rejects_unread 0)).2 (by simp)
  have flat := (level e' "x*x" _ _ (isLevel_square 1)).1.2 (by decide)
  exact ⟨accepted, rejects_unread 0, fails, isLevel_square 1, flat⟩

/-- Without iterations, the Newton-Raphson method has an answer for a text that is no formula, and
the secant method for a level chord. -/
theorem not_failsAtOnce_without_iterations :
    let e : Engine .newtonRaphson Formula.Error := .make { maxIterations := 0 } Formula.evaluator
    let e' : Engine .secant Formula.Error := .make { maxIterations := 0 } Formula.evaluator
    e.Rejects "x+" ∧ Engine.GivesUpAtOnce (e.solve "x+" (1.0 : Float) none) 1.0 ∧
      e'.IsLevel "x*x" ⟨-1.0, 1.0⟩ ⟨1.0, 1.0⟩ ∧
      Engine.GivesUpAtOnce (e'.solve "x*x" ((-1.0, 1.0) : Float × Float) none) 1.0 := by
  intro e e'
  have accepted : (none : Option Float).all isTolerance = true := rfl
  have answers := Engine.givesUpAtOnce_of_isLevel accepted (isLevel_square 0) rfl
  exact ⟨rejects_unread 0, Engine.givesUpAtOnce_newtonRaphson accepted rfl, isLevel_square 0,
    answers⟩

end Stepwise.Root
