import Stepwise.Proofs.Iteration
import Stepwise.Root.Engine

/-!
# What the calls of a root finder come to

- `Engine.solve_none`: a search leaves its report, and nothing else
- `Engine.solve_of_refused`, `Engine.solve_of_accepted`: so with a tolerance of its own
- `Engine.solve_of_all_accepted`: both, unless the tolerance is refused
- `Engine.Changes`, `Engine.after_induction`: what a call may do to that which outlasts a search
- `Engine.Sound`: settings and formats that a search can work with
- `Engine.Shows`: the state is that of a `Finder` after the same calls
-/

namespace Stepwise.Root

/-- Settings that a search can work with. -/
structure Settings.Sound (settings : Settings) : Prop where
  tolerance_isFinite : settings.tolerance.isFinite = true
  tolerance_pos : 0.0 < settings.tolerance
  derivativeStep_isFinite : settings.derivativeStep.isFinite = true
  derivativeStep_pos : 0.0 < settings.derivativeStep
  variableName_isIdentifier : Formula.isIdentifier settings.variableName = true

namespace Engine

variable {method : Method} {ε σ β α : Type} {e : Engine method ε} {formula : String}
  {start : method.Start} {tolerance : Float}

/-! ## Parts of a search -/

theorem record_nil (e : Engine method ε) : e.record [] [] = e := by
  simp [record, Transcript.extend]

theorem record_record (e : Engine method ε) (lines : List String) (estimates : List Float)
    (lines' : List String) (estimates' : List Float) :
    (e.record lines estimates).record lines' estimates' =
      e.record (lines ++ lines') (estimates ++ estimates') := by
  simp [record, Transcript.extend]

@[simp] theorem settings_record (lines : List String) (estimates : List Float) :
    (e.record lines estimates).settings = e.settings := rfl

@[simp] theorem problem_record (lines : List String) (estimates : List Float) :
    (e.record lines estimates).problem = e.problem := rfl

@[simp] theorem settings_problem : e.problem.settings = e.settings := rfl

@[simp] theorem run_write (lines : List String) :
    (write lines).run e = .ok () (e.record lines []) := rfl

theorem run_follow_of_ok {trail : Trail String (Error ε) α} {a : α} (ended : trail.ending = .ok a) :
    (follow trail).run e = .ok a (e.record trail.entries []) := by
  rw [follow, EStateM.run_bind, run_write, ended]
  rfl

theorem run_follow_of_error {trail : Trail String (Error ε) α} {cause : Error ε}
    (ended : trail.ending = .error cause) :
    (follow trail).run e = .error cause (e.record trail.entries []) := by
  rw [follow, EStateM.run_bind, run_write, ended]
  rfl

/-- The state with a report as that of the latest search. -/
def showing (e : Engine method ε) (r : Report ε) : Engine method ε :=
  { e with
    transcript := r.transcript, iterations := r.iterations, root? := r.root?, error? := r.error? }

section

variable [ToString ε]

/-- A method that is carried out leaves the report that it is said to leave. -/
theorem finish_pursue (rule : Rule σ β ε) (trail : Trail String (Error ε) σ) :
    let fresh := e.cleared formula
    let r := rule.report fresh.problem method.title trail
    finish ((pursue rule trail).run (fresh.record fresh.problem.opening [])) =
      (r.outcome, fresh.showing r) := by
  dsimp only
  rw [pursue, Rule.report]
  cases ended : trail.ending with
  | error cause =>
    simp only [EStateM.run_bind, run_follow_of_error ended, record_record]
    rfl
  | ok first =>
    simp only [EStateM.run_bind, run_follow_of_ok ended, Scheme.run_carryOut, EStateM.run_get,
      Scheme.noteAll_eq rule.lines rule.estimate record_nil record_record, record_record,
      List.nil_append, settings_record, settings_problem]
    rw [Scheme.run]
    -- Both sides follow the same run, so that only its ending matters.
    generalize Scheme.runFrom _ _ _ _ = run
    obtain ⟨made, last | state | ⟨cause, _ | step⟩⟩ := run
    all_goals
      simp only [Scheme.close, Rule.closingLines, Rule.finding, EStateM.run_bind, EStateM.run_pure,
        run_write, record_record, List.append_nil, Nat.add_comm 1]
      rfl

theorem finish_search (start : method.Start) :
    let fresh := e.cleared formula
    let r := method.report fresh.problem start
    finish ((search method fresh.problem start).run (fresh.record fresh.problem.opening [])) =
      (r.outcome, fresh.showing r) := by
  cases method with
  | bisection =>
    obtain ⟨a, b⟩ := start
    exact finish_pursue (bisection _) (bracketStart _ a b)
  | falsePosition =>
    obtain ⟨a, b⟩ := start
    exact finish_pursue (falsePosition _) (bracketStart _ a b)
  | secant =>
    obtain ⟨x0, x1⟩ := start
    exact finish_pursue (secant _) (secantStart _ x0 x1)
  | newtonRaphson => exact finish_pursue (newtonRaphson _) (newtonStart _ start)
  | fixedPoint => exact finish_pursue (fixedPoint _) (fixedPointStart _ start)

end

/-! ## Calls -/

/-- The state with another tolerance and the formats that follow it. -/
def adopting (e : Engine method ε) (tolerance : Float) : Engine method ε :=
  { e with settings := { e.settings with tolerance }, formats := .forTolerance tolerance }

theorem run_setTolerance_of_refused (refused : isTolerance tolerance = false) :
    (setTolerance tolerance).run e = .error (.tolerance tolerance) e := by
  simp only [setTolerance, EStateM.run_bind, EStateM.run_get, Settings.withTolerance, refused]
  rfl

theorem run_setTolerance_of_accepted (accepted : isTolerance tolerance = true) :
    (setTolerance tolerance).run e = .ok () (e.adopting tolerance) := by
  simp only [setTolerance, EStateM.run_bind, EStateM.run_get, Settings.withTolerance, accepted]
  rfl

theorem run_setDerivativeStep_of_refused {h : Float} (refused : isTolerance h = false) :
    (setDerivativeStep h).run e = .error (.derivativeStep h) e := by
  simp only [setDerivativeStep, EStateM.run_bind, EStateM.run_get, Settings.withDerivativeStep,
    refused]
  rfl

theorem run_setDerivativeStep_of_accepted {h : Float} (accepted : isTolerance h = true) :
    (setDerivativeStep h).run e =
      .ok () { e with settings := { e.settings with derivativeStep := h } } := by
  simp only [setDerivativeStep, EStateM.run_bind, EStateM.run_get, Settings.withDerivativeStep,
    accepted]
  rfl

theorem run_prepare_none : (prepare formula none).run e =
    .ok () ((e.cleared formula).record (e.cleared formula).problem.opening []) := rfl

theorem run_prepare_of_refused (refused : isTolerance tolerance = false) :
    (prepare formula (some tolerance)).run e =
      .error (.invalidSetting (.tolerance tolerance)) (e.cleared formula) := by
  rw [prepare, EStateM.run_bind, EStateM.run_modify]
  dsimp only
  rw [EStateM.run_bind, EStateM.run_adaptExcept, run_setTolerance_of_refused refused]

theorem run_prepare_of_accepted (accepted : isTolerance tolerance = true) :
    (prepare formula (some tolerance)).run e =
      (prepare formula none).run (e.adopting tolerance) := by
  rw [run_prepare_none, prepare, EStateM.run_bind, EStateM.run_modify]
  dsimp only
  rw [EStateM.run_bind, EStateM.run_adaptExcept, run_setTolerance_of_accepted accepted]
  rfl

/-- The state in which a search with an accepted tolerance is carried out. -/
def opened (e : Engine method ε) (formula : String) (tolerance? : Option Float) : Engine method ε :=
  match tolerance? with
  | none => e.cleared formula
  | some tolerance => (e.adopting tolerance).cleared formula

@[simp] theorem evaluator_opened (formula : String) (tolerance? : Option Float) :
    (e.opened formula tolerance?).problem.evaluator = e.evaluator := by
  cases tolerance? <;> rfl

@[simp] theorem formula_opened (formula : String) (tolerance? : Option Float) :
    (e.opened formula tolerance?).problem.formula = formula := by
  cases tolerance? <;> rfl

@[simp] theorem variableName_opened (formula : String) (tolerance? : Option Float) :
    (e.opened formula tolerance?).settings.variableName = e.settings.variableName := by
  cases tolerance? <;> rfl

@[simp] theorem tolerance_opened (formula : String) (tolerance? : Option Float) :
    (e.opened formula tolerance?).settings.tolerance = tolerance?.getD e.settings.tolerance := by
  cases tolerance? <;> rfl

@[simp] theorem derivativeStep_opened (formula : String) (tolerance? : Option Float) :
    (e.opened formula tolerance?).settings.derivativeStep = e.settings.derivativeStep := by
  cases tolerance? <;> rfl

@[simp] theorem maxIterations_opened (formula : String) (tolerance? : Option Float) :
    (e.opened formula tolerance?).settings.maxIterations = e.settings.maxIterations := by
  cases tolerance? <;> rfl

section

variable [ToString ε]

/-- A search leaves the report of its method, which depends on the settings, the formats and the
evaluator only. -/
theorem solve_none :
    e.solve formula start none =
      let fresh := e.cleared formula
      let r := method.report fresh.problem start
      (r.outcome, fresh.showing r) := by
  rw [solve, EStateM.run_bind, run_prepare_none]
  dsimp only
  rw [EStateM.run_bind, EStateM.run_get]
  dsimp only
  rw [problem_record]
  exact finish_search start

theorem solve_of_refused (refused : isTolerance tolerance = false) :
    e.solve formula start (some tolerance) =
      (.failed, (e.cleared formula).showing
        (.refused method.title (.invalidSetting (.tolerance tolerance)))) := by
  rw [solve, EStateM.run_bind, run_prepare_of_refused refused]
  rfl

/-- A tolerance that is given with a search might as well have been set before. -/
theorem solve_of_accepted (accepted : isTolerance tolerance = true) :
    e.solve formula start (some tolerance) = (e.adopting tolerance).solve formula start none := by
  rw [solve, solve, EStateM.run_bind, EStateM.run_bind, run_prepare_of_accepted accepted]

/-- With a tolerance that is accepted, or without one, a search leaves the report of its method. -/
theorem solve_of_all_accepted {tolerance? : Option Float}
    (accepted : tolerance?.all isTolerance = true) :
    e.solve formula start tolerance? =
      let fresh := e.opened formula tolerance?
      let r := method.report fresh.problem start
      (r.outcome, fresh.showing r) := by
  cases tolerance? with
  | none => exact solve_none
  | some tolerance => rw [solve_of_accepted accepted, solve_none, opened]

/-- Of the state before a search, only the settings, the formats and the evaluator matter. -/
theorem solve_congr {e' : Engine method ε} (settings : e.settings = e'.settings)
    (formats : e.formats = e'.formats) (evaluator : e.evaluator = e'.evaluator)
    (tolerance? : Option Float) :
    e.solve formula start tolerance? = e'.solve formula start tolerance? := by
  have fresh : e.cleared formula = e'.cleared formula := by
    rw [cleared, cleared, settings, formats, evaluator]
  have adopted (tolerance : Float) :
      (e.adopting tolerance).cleared formula = (e'.adopting tolerance).cleared formula := by
    rw [cleared, cleared, adopting, adopting, settings, evaluator]
  cases tolerance? with
  | none => rw [solve_none, solve_none, fresh]
  | some tolerance =>
    cases accepted : isTolerance tolerance with
    | false => rw [solve_of_refused accepted, solve_of_refused accepted, fresh]
    | true =>
      rw [solve_of_accepted accepted, solve_of_accepted accepted, solve_none, solve_none,
        adopted]

/-! ## Series of calls -/

/-- What a call may do to that which outlasts a search. -/
inductive Changes (e e' : Engine method ε) : Prop where
  | nothing (settings : e'.settings = e.settings) (formats : e'.formats = e.formats)
    (evaluator : e'.evaluator = e.evaluator)
  | tolerance {t : Float} (accepted : isTolerance t = true)
    (settings : e'.settings = { e.settings with tolerance := t })
    (formats : e'.formats = .forTolerance t) (evaluator : e'.evaluator = e.evaluator)
  | derivativeStep {h : Float} (accepted : isTolerance h = true)
    (settings : e'.settings = { e.settings with derivativeStep := h })
    (formats : e'.formats = e.formats) (evaluator : e'.evaluator = e.evaluator)

theorem changes_solve (tolerance? : Option Float) :
    e.Changes (e.solve formula start tolerance?).2 := by
  cases tolerance? with
  | none =>
    rw [solve_none]
    exact .nothing rfl rfl rfl
  | some tolerance =>
    cases accepted : isTolerance tolerance with
    | false =>
      rw [solve_of_refused accepted]
      exact .nothing rfl rfl rfl
    | true =>
      rw [solve_of_accepted accepted, solve_none]
      exact .tolerance accepted rfl rfl rfl

theorem changes_call (c : Call method) : e.Changes (e.call c) := by
  cases c with
  | setTolerance tolerance =>
    cases accepted : isTolerance tolerance with
    | false =>
      rw [call, run_setTolerance_of_refused accepted]
      exact .nothing rfl rfl rfl
    | true =>
      rw [call, run_setTolerance_of_accepted accepted]
      exact .tolerance accepted rfl rfl rfl
  | setDerivativeStep h =>
    cases accepted : isTolerance h with
    | false =>
      rw [call, run_setDerivativeStep_of_refused accepted]
      exact .nothing rfl rfl rfl
    | true =>
      rw [call, run_setDerivativeStep_of_accepted accepted]
      exact .derivativeStep accepted rfl rfl rfl
  | solve => exact changes_solve _

/-- What each call preserves is preserved by a series of calls. -/
theorem after_induction {P : Engine method ε → Prop} (calls : List (Call method)) (first : P e)
    (preserved : ∀ e e', Changes e e' → P e → P e') : P (e.after calls) := by
  induction calls generalizing e with
  | nil => exact first
  | cons c calls ih => exact ih (preserved _ _ (changes_call c) first)

theorem formats_after {settings : Settings} {evaluator : Evaluator ε}
    (calls : List (Call method)) :
    ((make settings evaluator).after calls).formats =
      .forTolerance ((make settings evaluator).after calls).settings.tolerance := by
  refine after_induction (P := fun e => e.formats = .forTolerance e.settings.tolerance) calls rfl
    fun e e' changes follows => ?_
  cases changes with
  | nothing settings formats _ => rw [formats, settings, follows]
  | tolerance _ settings formats _ => rw [formats, settings]
  | derivativeStep _ settings formats _ => rw [formats, settings, follows]

theorem evaluator_after {settings : Settings} {evaluator : Evaluator ε}
    (calls : List (Call method)) :
    ((make settings evaluator).after calls).evaluator = evaluator := by
  refine after_induction (P := fun e => e.evaluator = evaluator) calls rfl
    fun e e' changes same => ?_
  cases changes with
  | nothing _ _ evaluator | tolerance _ _ _ evaluator | derivativeStep _ _ _ evaluator =>
    exact evaluator.trans same

end

end Engine

/-! ## Sound settings -/

namespace Settings

variable {settings settings' : Settings}

theorem sound_default : Sound {} where
  tolerance_isFinite := by decide +kernel
  tolerance_pos := by decide +kernel
  derivativeStep_isFinite := by decide +kernel
  derivativeStep_pos := by decide +kernel
  variableName_isIdentifier := by decide +kernel

theorem Sound.withTolerance {tolerance : Float} (sound : settings.Sound)
    (made : settings.withTolerance tolerance = .ok settings') : settings'.Sound := by
  rw [Settings.withTolerance] at made
  split at made
  next accepted =>
    cases made
    obtain ⟨finite, pos⟩ := isTolerance_iff.1 accepted
    exact { sound with tolerance_isFinite := finite, tolerance_pos := pos }
  next => cases made

theorem Sound.withVariableName {name : String} (sound : settings.Sound)
    (made : settings.withVariableName name = .ok settings') : settings'.Sound := by
  rw [Settings.withVariableName] at made
  split at made
  next accepted =>
    cases made
    exact { sound with variableName_isIdentifier := accepted }
  next => cases made

theorem Sound.withMaxIterations (sound : settings.Sound) (maxIterations : Nat) :
    (settings.withMaxIterations maxIterations).Sound := { sound with }

theorem Sound.call {c : Call} (sound : settings.Sound) (made : settings.call c = .ok settings') :
    settings'.Sound := by
  cases c with
  | make tolerance maxIterations name =>
    rw [Settings.call, make] at made
    cases first : ({} : Settings).withTolerance tolerance with
    | error cause => simp [first, bind, Except.bind] at made
    | ok chosen =>
      rw [first] at made
      exact ((sound_default.withTolerance first).withMaxIterations _).withVariableName made
  | tolerance => exact sound.withTolerance made
  | maxIterations maxIterations =>
    cases made
    exact sound.withMaxIterations maxIterations
  | variableName => exact sound.withVariableName made

theorem Sound.after (sound : settings.Sound) (calls : List Call) : (settings.after calls).Sound := by
  induction calls generalizing settings with
  | nil => exact sound
  | cons c calls ih =>
    refine ih ?_
    dsimp only
    cases made : settings.call c with
    | error => exact sound
    | ok settings' => exact sound.call made

/-- A call that is refused might as well not have been made. -/
theorem after_concat_of_error {calls : List Call} {c : Call} {cause : SettingError}
    (refused : (settings.after calls).call c = .error cause) :
    settings.after (calls ++ [c]) = settings.after calls := by
  rw [after] at refused ⊢
  rw [List.foldl_append, List.foldl_cons, List.foldl_nil, refused]
  rfl

end Settings

namespace Engine

variable {method : Method} {ε : Type} {e : Engine method ε}

/-- A state in which a search can be carried out. -/
structure Sound (e : Engine method ε) : Prop where
  settings : e.settings.Sound
  formats : e.formats = .forTolerance e.settings.tolerance

theorem sound_after [ToString ε] {settings : Settings} (sound : settings.Sound)
    (evaluator : Evaluator ε) (calls : List (Call method)) :
    ((make settings evaluator).after calls).Sound := by
  refine ⟨after_induction (P := fun e => e.settings.Sound) calls sound
    fun e e' changes sound => ?_, formats_after calls⟩
  cases changes with
  | nothing settings => rwa [settings]
  | tolerance accepted settings =>
    obtain ⟨finite, pos⟩ := isTolerance_iff.1 accepted
    rw [settings]
    exact { sound with tolerance_isFinite := finite, tolerance_pos := pos }
  | derivativeStep accepted settings =>
    obtain ⟨finite, pos⟩ := isTolerance_iff.1 accepted
    rw [settings]
    exact { sound with derivativeStep_isFinite := finite, derivativeStep_pos := pos }

/-! ## Finders -/

/-- The state is the one in which a finder would be: same settings, and everything else as its
report has it. -/
structure Shows (e : Engine method ε) (f : Finder method ε) : Prop where
  settings : e.settings = f.settings
  formats : e.formats = .forTolerance e.settings.tolerance
  evaluator : e.evaluator = f.evaluator
  report : ∀ r, f.report? = some r → e = e.showing r

variable {f : Finder method ε} {formula : String} {start : method.Start} {tolerance : Float}

theorem shows_make (settings : Settings) (evaluator : Evaluator ε) :
    (make settings evaluator : Engine method ε).Shows { settings, evaluator } :=
  ⟨rfl, rfl, rfl, nofun⟩

theorem Shows.adopting (shows : e.Shows f) :
    (e.adopting tolerance).Shows { f with settings := { f.settings with tolerance } } := by
  refine ⟨?_, rfl, shows.evaluator, fun r same => ?_⟩
  · rw [Engine.adopting, shows.settings]
  · exact congrArg (·.adopting tolerance) (shows.report r same)

variable [ToString ε]

theorem Shows.setTolerance (shows : e.Shows f) {f' : Finder method ε}
    (made : f.setTolerance tolerance = .ok f') :
    (e.call (.setTolerance tolerance)).Shows f' := by
  cases accepted : isTolerance tolerance with
  | false =>
    simp [Finder.setTolerance, Settings.withTolerance, accepted, bind, Except.bind] at made
  | true =>
    rw [call, run_setTolerance_of_accepted accepted]
    simp only [Finder.setTolerance, Settings.withTolerance, accepted] at made
    cases made
    exact shows.adopting

theorem Shows.solve (shows : e.Shows f) :
    (e.solve formula start none).2.Shows (f.solve formula start) := by
  rw [solve_none]
  refine ⟨shows.settings, shows.formats, shows.evaluator, fun r same => ?_⟩
  have problem : (e.cleared formula).problem =
      { evaluator := f.evaluator, formula, settings := f.settings } := by
    rw [← shows.settings, ← shows.evaluator, ← shows.formats]
    rfl
  cases same
  rw [← problem]
  rfl

theorem Shows.solveWithTolerance (shows : e.Shows f) (tolerance : Float) :
    (e.solve formula start (some tolerance)).2.Shows
      (f.solveWithTolerance formula start tolerance) := by
  cases accepted : isTolerance tolerance with
  | false =>
    rw [solve_of_refused accepted, Finder.solveWithTolerance_of_refused accepted]
    refine ⟨shows.settings, shows.formats, shows.evaluator, fun r same => ?_⟩
    cases same
    rfl
  | true =>
    rw [solve_of_accepted accepted, Finder.solveWithTolerance_of_accepted accepted]
    exact shows.adopting.solve

end Engine

end Stepwise.Root
