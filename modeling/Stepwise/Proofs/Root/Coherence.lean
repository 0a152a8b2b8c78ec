import Mathlib.Data.List.Basic
import Stepwise.Proofs.Iteration
import Stepwise.Root.Finder

/-!
# Reports agree with themselves

Whatever a search is given and however it ends, the parts of its report tell the same story.

- `Report.Coherent`: what is asked of the parts of a report
- `Method.Latest`: the best estimate of a search that was not settled
- `Rule.coherent_report`: the reports of all methods are coherent
- `coherent_of_search`: a finder has such a report after every call
-/

namespace Stepwise.Root

variable {ε σ β : Type}

/-! ## Coherent reports -/

/-- The parts of a report agree with each other and with the problem; `latest` says which root the
estimates of an unsettled search leave. -/
structure Report.Coherent [ToString ε] (r : Report ε) (title : String) (p : Problem ε)
    (latest : List Float → Float → Prop) : Prop where
  failed_iff_error : r.outcome = .failed ↔ r.error?.isSome = true
  failed_iff_root : r.outcome = .failed ↔ r.root? = none
  failed_iff_answers : r.outcome = .failed ↔ r.transcript.answers = []
  failed_iff_display :
    r.outcome = .failed ↔ "Solution failed:\n".toList <+: r.transcript.render.toList
  failure : ∀ e, r.error? = some e →
    r.transcript.steps.getLast? = some (title ++ " cannot continue: " ++ e.message)
  success : ∀ x, r.root? = some x → r.transcript.answers =
    ["Root found: " ++ p.number x, "Number of iterations: " ++ toString r.iterations.length,
      "Final tolerance: " ++ p.number p.settings.tolerance]
  bounded : r.iterations.length ≤ p.settings.maxIterations
  converged : r.outcome = .converged → ∃ x, r.root? = some x ∧ r.iterations.getLast? = some x ∧
    r.transcript.steps.getLast? = some "Convergence achieved!"
  exhausted : r.outcome = .exhausted → ∃ x, r.root? = some x ∧ latest r.iterations x ∧
    r.iterations.length = p.settings.maxIterations ∧
    r.transcript.steps.getLast? = some "Maximum iterations reached without convergence."

theorem Report.outcome_eq_failed_iff {r : Report ε} :
    r.outcome = .failed ↔ ∃ e, r.result = .error e := by
  rw [outcome]
  cases r.result with
  | error e => simp
  | ok finding =>
    simp only [reduceCtorEq, exists_false, iff_false]
    split <;> simp

section

variable [ToString ε] {title : String} {p : Problem ε} {latest : List Float → Float → Prop}
  {steps : List String} {iterations : List Float}

/-- What a report is closed with makes most of it agree. The steps and the estimates have to agree
with the finding, if there is one. -/
theorem Report.coherent_conclude {result : Except (Error ε) Finding}
    (bounded : iterations.length ≤ p.settings.maxIterations)
    (converged : ∀ finding, result = .ok finding → finding.converged = true →
      iterations.getLast? = some finding.root ∧ steps.getLast? = some "Convergence achieved!")
    (exhausted : ∀ finding, result = .ok finding → finding.converged = false →
      latest iterations finding.root ∧ iterations.length = p.settings.maxIterations ∧
        steps.getLast? = some "Maximum iterations reached without convergence.") :
    (conclude title p.number p.settings.tolerance steps iterations result).Coherent title p
      latest where
  failed_iff_error := by cases result <;> simp [outcome_eq_failed_iff, conclude, error?]
  failed_iff_root := by cases result <;> simp [outcome_eq_failed_iff, conclude, root?]
  failed_iff_answers := by cases result <;> simp [outcome_eq_failed_iff, conclude]
  failed_iff_display := by
    rw [Transcript.failed_isPrefix_render_iff]
    cases result <;> simp [outcome_eq_failed_iff, conclude]
  failure := by cases result <;> simp [conclude, error?]
  success := by cases result <;> simp [conclude, root?]
  bounded := by cases result <;> exact bounded
  converged := by
    cases result with
    | error e => simp [conclude, outcome]
    | ok finding =>
      cases settled : finding.converged with
      | false => simp [conclude, outcome, settled]
      | true => exact fun _ => ⟨finding.root, rfl, converged finding rfl settled⟩
  exhausted := by
    cases result with
    | error e => simp [conclude, outcome]
    | ok finding =>
      cases settled : finding.converged with
      | true => simp [conclude, outcome, settled]
      | false => exact fun _ => ⟨finding.root, rfl, exhausted finding rfl settled⟩

theorem Report.coherent_conclude_error {e : Error ε}
    (bounded : iterations.length ≤ p.settings.maxIterations) :
    (conclude title p.number p.settings.tolerance steps iterations (.error e)).Coherent title p
      latest :=
  coherent_conclude bounded nofun nofun

theorem Report.coherent_conclude_ok {finding : Finding}
    (bounded : iterations.length ≤ p.settings.maxIterations)
    (converged : finding.converged = true → iterations.getLast? = some finding.root ∧
      steps.getLast? = some "Convergence achieved!")
    (exhausted : finding.converged = false → latest iterations finding.root ∧
      iterations.length = p.settings.maxIterations ∧
      steps.getLast? = some "Maximum iterations reached without convergence.") :
    (conclude title p.number p.settings.tolerance steps iterations (.ok finding)).Coherent title p
      latest := by
  refine coherent_conclude bounded ?_ ?_
  · rintro _ ⟨⟩
    exact converged
  · rintro _ ⟨⟩
    exact exhausted

theorem Report.coherent_refused (e : Error ε) : (refused title e).Coherent title p latest := by
  change (conclude title p.number p.settings.tolerance [] [] (.error e)).Coherent title p latest
  exact coherent_conclude_error (Nat.zero_le _)

/-- The report of a method is coherent, given what its best estimate is at the end of a path. -/
theorem Rule.coherent_report (rule : Rule σ β (ε := ε)) {start : Trail String (Error ε) σ}
    (best : ∀ state steps final, start.ending = .ok state → rule.Path 1 state steps final →
      latest (steps.map rule.estimate) (rule.best final)) :
    (rule.report p title start).Coherent title p latest := by
  rw [report]
  cases started : start.ending with
  | error e => exact Report.coherent_conclude_error (Nat.zero_le _)
  | ok state =>
    dsimp only
    have goes := rule.goes_run p.settings.maxIterations state
    have within := rule.length_steps_run_le p.settings.maxIterations state
    generalize rule.run p.settings.maxIterations state = run at goes within
    cases goes with
    | settled path made settles _ =>
      simp only [finding]
      refine Report.coherent_conclude_ok (by simpa using within) (fun _ => ?_) nofun
      simp [closingLines]
    | exhausted path all =>
      simp only [finding]
      refine Report.coherent_conclude_ok (by simpa using within) nofun fun _ => ?_
      exact ⟨best state _ _ started path, by simpa using all, by simp [closingLines]⟩
    | interrupted path failed _ =>
      simp only [finding]
      exact Report.coherent_conclude_error (by simpa using within)

end

/-! ## Where the steps of a method lead -/

variable {p : Problem ε} {count : Nat}

theorem Rule.coherent_report_of_follows [ToString ε] (rule : Rule σ β ε) {title : String}
    {start : Trail String (Error ε) σ} {first : Float}
    (follows : ∀ state step, rule.best (rule.next state step) = rule.estimate step)
    (starts : ∀ state, start.ending = .ok state → rule.best state = first) :
    (rule.report p title start).Coherent title p fun estimates x =>
      x = estimates.getLastD first := by
  refine rule.coherent_report fun state _ _ started path => ?_
  rw [← starts state started]
  exact path.view_final follows

theorem Problem.point_of_sample {x : Float} {s : Sample} (sampled : p.sample x = .ok s) :
    s.point = x := by
  rw [sample] at sampled
  split at sampled
  next => cases sampled
  next =>
    split at sampled <;> cases sampled
    rfl

/-- Brackets on the way from one to another: each estimate, sampled, takes the place of an end. -/
inductive Bracket.Narrows (p : Problem ε) : Bracket → List Float → Bracket → Prop where
  | nil {k : Bracket} : Narrows p k [] k
  | cons {k k' : Bracket} {x : Float} {s : Sample} {estimates : List Float}
    (sampled : p.sample x = .ok s) (later : Narrows p (k.shrink s) estimates k') :
    Narrows p k (x :: estimates) k'

theorem narrows_of_path {guess : Bracket → Float} {settles : BracketStep → Bool}
    {how : Bracket → String} {remarks : BracketStep → List String} {k k' : Bracket}
    {steps : List BracketStep}
    (path : (bracketing p guess settles how remarks).Path count k steps k') :
    k.Narrows p (steps.map fun step => step.estimate.point) k' := by
  induction path with
  | nil => exact .nil
  | @cons _ k _ step _ made _ _ ih =>
    have sampled : p.sample (guess k) = .ok step.estimate := by
      simp only [bracketing] at made
      split at made
      next => cases made
      next sampled =>
        cases made
        exact sampled
    rw [← p.point_of_sample sampled] at sampled
    exact .cons sampled ih

/-! ## Where a search starts -/

theorem ending_openingSamples {nameA nameB : String} {a b : Float} {samples : Sample × Sample}
    (ended : (p.openingSamples nameA nameB a b).ending = .ok samples) :
    p.sample a = .ok samples.1 ∧ p.sample b = .ok samples.2 := by
  simp only [Problem.openingSamples, Trail.ending_bind_eq_ok_iff, Trail.ending_ofExcept,
    Trail.ending_pure] at ended
  obtain ⟨first, sampled, second, sampled', -, -, same⟩ := ended
  cases same
  exact ⟨sampled, sampled'⟩

theorem ending_bracketStart {a b : Float} {k : Bracket}
    (ended : (bracketStart p a b).ending = .ok k) :
    ∃ first second, p.sample a = .ok first ∧ p.sample b = .ok second ∧
      Bracket.make (ε := ε) first second = .ok k := by
  obtain ⟨samples, sampled, made⟩ := Trail.ending_bind_eq_ok_iff.1 ended
  obtain ⟨first, second⟩ := ending_openingSamples sampled
  exact ⟨samples.1, samples.2, first, second, made⟩

theorem ending_secantStart {x0 x1 : Float} {state : SecantState}
    (ended : (secantStart p x0 x1).ending = .ok state) : state.later.point = x1 := by
  obtain ⟨samples, sampled, same⟩ := Trail.ending_bind_eq_ok_iff.1 ended
  cases same
  exact p.point_of_sample (ending_openingSamples sampled).2

theorem ending_newtonStart {x0 x : Float} (ended : (newtonStart p x0).ending = .ok x) : x = x0 := by
  cases ended
  rfl

theorem ending_fixedPointStart {x0 x : Float} (ended : (fixedPointStart p x0).ending = .ok x) :
    x = x0 := by
  simp only [fixedPointStart, Trail.ending_bind_eq_ok_iff] at ended
  obtain ⟨above, -, base, -, -, -, rest⟩ := ended
  -- With or without the warning, the search starts where it was told to.
  split at rest
  all_goals
    cases rest
    rfl

/-! ## All methods -/

/-- The best estimate that a method has after some estimates without having settled: the middle of
the bracket that they have led to, or the last of them. Before the first one it is the latest
starting point. -/
def Method.Latest (p : Problem ε) (method : Method) (start : method.Start)
    (estimates : List Float) (x : Float) : Prop :=
  match method, start with
  | .bisection, (a, b) | .falsePosition, (a, b) => ∃ first second k k',
      p.sample a = .ok first ∧ p.sample b = .ok second ∧
        Bracket.make (ε := ε) first second = .ok k ∧ k.Narrows p estimates k' ∧ x = k'.midpoint
  | .secant, (_, latest) => x = estimates.getLastD latest
  | .newtonRaphson, latest => x = estimates.getLastD latest
  | .fixedPoint, latest => x = estimates.getLastD latest

theorem Method.coherent_report [ToString ε] (method : Method) (p : Problem ε)
    (start : method.Start) :
    (method.report p start).Coherent method.title p (method.Latest p start) := by
  have bracketed {a b : Float} {k k' : Bracket} {estimates : List Float}
      (started : (bracketStart p a b).ending = .ok k) (narrows : k.Narrows p estimates k') :
      Method.bisection.Latest p (a, b) estimates k'.midpoint := by
    obtain ⟨first, second, sampled, sampled', made⟩ := ending_bracketStart started
    exact ⟨first, second, k, k', sampled, sampled', made, narrows, rfl⟩
  cases method with
  | bisection =>
    exact Rule.coherent_report _ fun _ _ _ started path => bracketed started (narrows_of_path path)
  | falsePosition =>
    exact Rule.coherent_report _ fun _ _ _ started path => bracketed started (narrows_of_path path)
  | secant =>
    exact (Root.secant p).coherent_report_of_follows (fun _ _ => rfl) fun _ => ending_secantStart
  | newtonRaphson =>
    exact (Root.newtonRaphson p).coherent_report_of_follows (fun _ _ => rfl) fun _ =>
      ending_newtonStart
  | fixedPoint =>
    exact (Root.fixedPoint p).coherent_report_of_follows (fun _ _ => rfl) fun _ =>
      ending_fixedPointStart

/-! ## Finders -/

variable {method : Method}

/-- A call has left a coherent report, made with the settings as they are then, of which only the
tolerance may be new. -/
def Finder.Reports [ToString ε] (before after : Finder method ε) (formula : String)
    (start : method.Start) : Prop :=
  let p : Problem ε := { evaluator := before.evaluator, formula, settings := after.settings }
  after.evaluator = before.evaluator ∧
    after.settings = { before.settings with tolerance := after.settings.tolerance } ∧
    ∃ r, after.report? = some r ∧ r.Coherent method.title p (method.Latest p start)

/-- Whatever a finder has been through, each of its calls leaves a coherent report. -/
theorem coherent_of_search [ToString ε] (f : Finder method ε) (formula : String)
    (start : method.Start) :
    f.Reports (f.solve formula start) formula start ∧
      ∀ tolerance, f.Reports (f.solveWithTolerance formula start tolerance) formula start := by
  refine ⟨⟨rfl, rfl, _, rfl, method.coherent_report _ start⟩, fun tolerance => ?_⟩
  cases accepted : isTolerance tolerance with
  | false =>
    rw [Finder.solveWithTolerance_of_refused accepted]
    exact ⟨rfl, rfl, _, rfl, Report.coherent_refused _⟩
  | true =>
    rw [Finder.solveWithTolerance_of_accepted accepted]
    exact ⟨rfl, rfl, _, rfl, method.coherent_report _ start⟩

end Stepwise.Root
