import Stepwise.Linear.Engine
import Stepwise.Proofs.Iteration

/-!
# What the calls of a solver come to

- `Engine.solve_none`: a solution leaves its report, and nothing else
- `Engine.solve_of_refused`, `Engine.solve_of_accepted`: so with a tolerance of its own
- `Engine.solve_of_all_accepted`: both, unless the tolerance is refused
- `Engine.Changes`, `Engine.after_induction`: what a call may do to that which outlasts a solution
- `Engine.Sound`: settings and formats that a solution can work with
- `Engine.Shows`: the state is that of a `Solver` after the same calls
-/

namespace Stepwise.Linear

/-- Settings that a solution can work with. -/
structure Settings.Sound (settings : Settings) : Prop where
  tolerance_isFinite : settings.tolerance.isFinite = true
  tolerance_pos : 0.0 < settings.tolerance

namespace Engine

variable {method : Method} {α : Type} {n : Nat} {e : Engine method} {rows : List (List Float)}
  {constants : List Float} {tolerance : Float}

/-! ## Parts of a solution -/

theorem record_nil (e : Engine method) : e.record [] [] = e := by
  simp [record, Transcript.extend]

theorem iterations_record_cleared (e : Engine method) (lines : List String)
    (passes : List (List Float)) : (e.cleared.record lines passes).iterations = passes := rfl

theorem record_record (e : Engine method) (lines : List String) (passes : List (List Float))
    (lines' : List String) (passes' : List (List Float)) :
    (e.record lines passes).record lines' passes' = e.record (lines ++ lines') (passes ++ passes') := by
  simp [record, Transcript.extend]

theorem foldl_answer (t : Transcript) (lines : List String) :
    lines.foldl .answer t = { t with answers := t.answers ++ lines } := by
  induction lines generalizing t with
  | nil => simp
  | cons line lines ih => simp [ih, Transcript.answer]

@[simp] theorem setup_record (lines : List String) (passes : List (List Float)) :
    (e.record lines passes).setup = e.setup := rfl

@[simp] theorem run_write (lines : List String) :
    (write lines).run e = .ok () (e.record lines []) := rfl

@[simp] theorem run_answer (lines : List String) :
    (answer lines).run e = .ok () (e.answered lines) := rfl

theorem run_follow_of_ok {trail : Trail String Error α} {a : α} (ended : trail.ending = .ok a) :
    (follow trail).run e = .ok a (e.record trail.entries []) := by
  rw [follow, EStateM.run_bind, run_write, ended]
  rfl

theorem run_follow_of_error {trail : Trail String Error α} {cause : Error}
    (ended : trail.ending = .error cause) :
    (follow trail).run e = .error cause (e.record trail.entries []) := by
  rw [follow, EStateM.run_bind, run_write, ended]
  rfl

/-- A solution that has come to its end, before the end is told. -/
def ended (e : Engine method) (steps : List String) (passes : List (List Float))
    (result : Except Error (Solution α)) (answers : List String) :
    EStateM.Result Error (Engine method) (Solution α) :=
  match result with
  | .ok solution => .ok solution ((e.record steps passes).answered answers)
  | .error cause => .error cause (e.record steps passes)

/-- The state with a report as that of the latest solution. -/
def showing (e : Engine method) (r : Report method.Value) : Engine method :=
  { e with
    transcript := r.transcript, iterations := r.iterations, solution := r.solution,
    error? := r.error? }

@[simp] theorem setup_showing (r : Report method.Value) : (e.showing r).setup = e.setup := rfl

theorem finish_ended (steps : List String) (passes : List (List Float))
    (result : Except Error (Solution method.Value)) (answers : List String) :
    let r := Report.conclude method.title steps passes result answers
    finish (ended e.cleared steps passes result answers) = (r.outcome, e.cleared.showing r) := by
  cases result with
  | error cause => rfl
  | ok solution =>
    simp only [ended, answered, foldl_answer]
    rfl

/-- A direct method that is carried out leaves the report that it is said to leave. -/
theorem finish_conduct (trail : Trail String Error (List method.Value))
    (answers : List method.Value → List String) :
    let r := Report.ofTrail method.title trail answers
    finish ((conduct trail answers).run e.cleared) = (r.outcome, e.cleared.showing r) := by
  rw [conduct, Report.ofTrail, EStateM.run_bind]
  cases ending : trail.ending with
  | error cause =>
    rw [run_follow_of_error ending]
    exact finish_ended trail.entries [] (.error cause) []
  | ok values =>
    rw [run_follow_of_ok ending]
    exact finish_ended trail.entries [] (.ok ⟨values, true⟩) (answers values)

/-- The counterpart of `sweep`. -/
theorem run_pursue (setup : Setup) (s : System Float n) (kind : Sweep) :
    (pursue setup s kind).run e.cleared =
      let start := sweepStart setup s kind
      match start.ending with
      | .error cause => ended e.cleared start.entries [] (.error cause) []
      | .ok arranged =>
        let run := (sweepScheme setup arranged kind).run maxPasses (Vector.replicate n 0.0)
        let result := runResult run
        let answers :=
          match result with
          | .ok solution => sweepAnswers setup run.steps.length solution
          | .error _ => []
        ended e.cleared (start.entries ++ runLines setup arranged run)
          (run.steps.map fun p => p.result.toList) result answers := by
  rw [pursue, EStateM.run_bind]
  dsimp only
  cases ending : (sweepStart setup s kind).ending with
  | error cause => rw [run_follow_of_error ending]; rfl
  | ok arranged =>
    rw [run_follow_of_ok ending]
    simp only [EStateM.run_bind, Scheme.run_carryOut, EStateM.run_get,
      Scheme.noteAll_eq (passLines setup arranged) (fun p => p.result.toList) record_nil
        record_record, record_record, List.nil_append]
    rw [Scheme.run]
    generalize Scheme.runFrom _ _ _ _ = run
    obtain ⟨made, last | state | ⟨cause, _ | p⟩⟩ := run
    all_goals
      simp only [Scheme.close, runLines, runResult, EStateM.run_pure, run_answer, record_record,
        iterations_record_cleared, List.length_map, List.append_nil, List.append_assoc,
        Nat.add_comm 1, ended]

/-- Each method leaves its report, given a system that has passed the checks. -/
theorem finish_search {s : System Float rows.length}
    (checked : System.check method.required rows constants = .ok s) :
    let fresh := e.cleared
    let r := method.report fresh.setup rows constants
    finish ((search method fresh.setup s).run fresh) = (r.outcome, fresh.showing r) := by
  dsimp only
  rw [Method.report, checked]
  cases method with
  | cramer => exact @finish_conduct .cramer e (cramerTrail _ s) (cramerAnswers _)
  | gaussian => exact @finish_conduct .gaussian e (gaussianTrail _ s) (gaussianAnswers _)
  | jacobi =>
    dsimp only [search]
    rw [run_pursue, sweep]
    dsimp only
    cases (sweepStart e.cleared.setup s .jacobi).ending <;> exact @finish_ended .jacobi e _ _ _ _
  | gaussSeidel =>
    dsimp only [search]
    rw [run_pursue, sweep]
    dsimp only
    cases (sweepStart e.cleared.setup s .gaussSeidel).ending <;>
      exact @finish_ended .gaussSeidel e _ _ _ _

/-! ## Calls -/

/-- The state with another tolerance and the formats that follow it. -/
def adopting (e : Engine method) (tolerance : Float) : Engine method :=
  { e with settings := { e.settings with tolerance }, formats := .forTolerance tolerance }

theorem run_setTolerance_of_refused (refused : isTolerance tolerance = false) :
    (setTolerance tolerance).run e = .error (.tolerance tolerance) e := by
  simp only [setTolerance, EStateM.run_bind, EStateM.run_get, Settings.withTolerance, refused]
  rfl

theorem run_setTolerance_of_accepted (accepted : isTolerance tolerance = true) :
    (setTolerance tolerance).run e = .ok () (e.adopting tolerance) := by
  simp only [setTolerance, EStateM.run_bind, EStateM.run_get, Settings.withTolerance, accepted]
  rfl

theorem run_prepare_none : (prepare none).run e = .ok () e.cleared := rfl

theorem run_prepare_of_refused (refused : isTolerance tolerance = false) :
    (prepare (some tolerance)).run e =
      .error (.invalidSetting (.tolerance tolerance)) e.cleared := by
  rw [prepare, EStateM.run_bind, EStateM.run_modify]
  dsimp only
  rw [EStateM.run_adaptExcept, run_setTolerance_of_refused refused]

theorem run_prepare_of_accepted (accepted : isTolerance tolerance = true) :
    (prepare (some tolerance)).run e = (prepare none).run (e.adopting tolerance) := by
  rw [run_prepare_none, prepare, EStateM.run_bind, EStateM.run_modify]
  dsimp only
  rw [EStateM.run_adaptExcept, run_setTolerance_of_accepted accepted]
  rfl

/-- A solution leaves the report of its method, which depends on the settings and the formats
only. -/
theorem solve_none :
    e.solve rows constants none =
      let r := method.report e.cleared.setup rows constants
      (r.outcome, e.cleared.showing r) := by
  rw [solve, EStateM.run_bind, run_prepare_none]
  dsimp only
  rw [EStateM.run_bind]
  cases checked : System.check method.required rows constants with
  | error cause =>
    have stopped : (ofExcept (.error cause) : Work method (System Float rows.length)).run
        e.cleared = .error cause e.cleared := rfl
    rw [stopped, Method.report, checked]
    exact finish_ended [] [] (.error cause) []
  | ok s =>
    have passed : (ofExcept (.ok s) : Work method (System Float rows.length)).run e.cleared =
        .ok s e.cleared := rfl
    rw [passed]
    dsimp only
    rw [EStateM.run_bind, EStateM.run_get]
    exact finish_search checked

theorem solve_of_refused (refused : isTolerance tolerance = false) :
    e.solve rows constants (some tolerance) =
      (.failed, e.cleared.showing
        (.conclude method.title [] [] (.error (.invalidSetting (.tolerance tolerance))) [])) := by
  rw [solve, EStateM.run_bind, run_prepare_of_refused refused]
  rfl

/-- A tolerance that is given with a system might as well have been set before. -/
theorem solve_of_accepted (accepted : isTolerance tolerance = true) :
    e.solve rows constants (some tolerance) = (e.adopting tolerance).solve rows constants none := by
  rw [solve, solve, EStateM.run_bind, EStateM.run_bind, run_prepare_of_accepted accepted]

/-- The state in which a solution with an accepted tolerance is carried out. -/
def opened (e : Engine method) (tolerance? : Option Float) : Engine method :=
  match tolerance? with
  | none => e.cleared
  | some tolerance => (e.adopting tolerance).cleared

/-- With a tolerance that is accepted, or without one, a solution leaves the report of its method. -/
theorem solve_of_all_accepted {tolerance? : Option Float}
    (accepted : tolerance?.all isTolerance = true) :
    e.solve rows constants tolerance? =
      let fresh := e.opened tolerance?
      let r := method.report fresh.setup rows constants
      (r.outcome, fresh.showing r) := by
  cases tolerance? with
  | none => exact solve_none
  | some tolerance => rw [solve_of_accepted accepted, solve_none, opened]

/-- Of the state before a solution, only the settings and the formats matter. -/
theorem solve_congr {e' : Engine method} (settings : e.settings = e'.settings)
    (formats : e.formats = e'.formats) (tolerance? : Option Float) :
    e.solve rows constants tolerance? = e'.solve rows constants tolerance? := by
  have fresh : e.cleared = e'.cleared := by rw [cleared, cleared, settings, formats]
  have adopted (tolerance : Float) :
      (e.adopting tolerance).cleared = (e'.adopting tolerance).cleared := by
    rw [cleared, cleared, adopting, adopting, settings]
  cases tolerance? with
  | none => rw [solve_none, solve_none, fresh]
  | some tolerance =>
    cases accepted : isTolerance tolerance with
    | false => rw [solve_of_refused accepted, solve_of_refused accepted, fresh]
    | true =>
      rw [solve_of_accepted accepted, solve_of_accepted accepted, solve_none, solve_none,
        adopted]

/-! ## Series of calls -/

/-- What a call may do to that which outlasts a solution. -/
inductive Changes (e e' : Engine method) : Prop where
  | nothing (settings : e'.settings = e.settings) (formats : e'.formats = e.formats)
  | tolerance {t : Float} (accepted : isTolerance t = true)
    (settings : e'.settings = { e.settings with tolerance := t })
    (formats : e'.formats = .forTolerance t)

theorem changes_solve (tolerance? : Option Float) :
    e.Changes (e.solve rows constants tolerance?).2 := by
  cases tolerance? with
  | none =>
    rw [solve_none]
    exact .nothing rfl rfl
  | some tolerance =>
    cases accepted : isTolerance tolerance with
    | false =>
      rw [solve_of_refused accepted]
      exact .nothing rfl rfl
    | true =>
      rw [solve_of_accepted accepted, solve_none]
      exact .tolerance accepted rfl rfl

theorem changes_call (c : Call) : e.Changes (e.call c) := by
  cases c with
  | setTolerance tolerance =>
    cases accepted : isTolerance tolerance with
    | false =>
      rw [call, run_setTolerance_of_refused accepted]
      exact .nothing rfl rfl
    | true =>
      rw [call, run_setTolerance_of_accepted accepted]
      exact .tolerance accepted rfl rfl
  | solve => exact changes_solve _

/-- What each call preserves is preserved by a series of calls. -/
theorem after_induction {P : Engine method → Prop} (calls : List Call) (first : P e)
    (preserved : ∀ e e', Changes e e' → P e → P e') : P (e.after calls) := by
  induction calls generalizing e with
  | nil => exact first
  | cons c calls ih => exact ih (preserved _ _ (changes_call c) first)

theorem formats_after {settings : Settings} (calls : List Call) :
    ((make settings : Engine method).after calls).formats =
      .forTolerance ((make settings : Engine method).after calls).settings.tolerance := by
  refine after_induction (P := fun e => e.formats = .forTolerance e.settings.tolerance) calls rfl
    fun e e' changes follows => ?_
  cases changes with
  | nothing settings formats => rw [formats, settings, follows]
  | tolerance _ settings formats => rw [formats, settings]

end Engine

/-! ## Sound settings -/

namespace Settings

variable {settings settings' : Settings}

theorem sound_default : Sound {} where
  tolerance_isFinite := by decide +kernel
  tolerance_pos := by decide +kernel

theorem sound_of_withTolerance {tolerance : Float}
    (made : settings.withTolerance tolerance = .ok settings') : settings'.Sound := by
  rw [withTolerance] at made
  split at made
  next accepted =>
    cases made
    obtain ⟨finite, pos⟩ := isTolerance_iff.1 accepted
    exact ⟨finite, pos⟩
  next => cases made

theorem Sound.after (sound : settings.Sound) (calls : List Call) : (settings.after calls).Sound := by
  induction calls generalizing settings with
  | nil => exact sound
  | cons c calls ih =>
    refine ih ?_
    dsimp only
    cases made : settings.call c with
    | error => exact sound
    | ok settings' =>
      cases c with
      | make => exact @sound_of_withTolerance {} _ _ made
      | tolerance => exact @sound_of_withTolerance settings _ _ made

/-- A call that is refused might as well not have been made. -/
theorem after_concat_of_error {calls : List Call} {c : Call} {cause : SettingError}
    (refused : (settings.after calls).call c = .error cause) :
    settings.after (calls ++ [c]) = settings.after calls := by
  rw [after] at refused ⊢
  rw [List.foldl_append, List.foldl_cons, List.foldl_nil, refused]
  rfl

end Settings

namespace Engine

variable {method : Method} {e : Engine method}

/-- A state in which a solution can be carried out. -/
structure Sound (e : Engine method) : Prop where
  settings : e.settings.Sound
  formats : e.formats = .forTolerance e.settings.tolerance

theorem sound_after {settings : Settings} (sound : settings.Sound) (calls : List Call) :
    ((make settings : Engine method).after calls).Sound := by
  refine ⟨after_induction (P := fun e => e.settings.Sound) calls sound
    fun e e' changes sound => ?_, formats_after calls⟩
  cases changes with
  | nothing settings => rwa [settings]
  | tolerance accepted settings =>
    obtain ⟨finite, pos⟩ := isTolerance_iff.1 accepted
    rw [settings]
    exact ⟨finite, pos⟩

/-- The formats of such a state are those that its settings come with. -/
theorem Sound.setup_eq (sound : e.Sound) : e.setup = e.settings.setup := by
  rw [setup, sound.formats]
  rfl

theorem Sound.opened (sound : e.Sound) {tolerance? : Option Float}
    (accepted : tolerance?.all isTolerance = true) : (e.opened tolerance?).Sound := by
  cases tolerance? with
  | none => exact ⟨sound.settings, sound.formats⟩
  | some tolerance =>
    obtain ⟨finite, pos⟩ := isTolerance_iff.1 accepted
    exact ⟨⟨finite, pos⟩, rfl⟩

/-! ## Solvers -/

/-- The state is the one in which a solver would be: same settings, and everything else as its
report has it. -/
structure Shows (e : Engine method) (solver : Solver method) : Prop where
  settings : e.settings = solver.settings
  formats : e.formats = .forTolerance e.settings.tolerance
  report : ∀ r, solver.report? = some r → e = e.showing r

variable {solver : Solver method} {rows : List (List Float)} {constants : List Float}
  {tolerance : Float}

theorem shows_make (settings : Settings) : (make settings : Engine method).Shows { settings } :=
  ⟨rfl, rfl, nofun⟩

theorem Shows.adopting (shows : e.Shows solver) :
    (e.adopting tolerance).Shows
      { solver with settings := { solver.settings with tolerance } } := by
  refine ⟨?_, rfl, fun r same => ?_⟩
  · rw [Engine.adopting, shows.settings]
  · exact congrArg (·.adopting tolerance) (shows.report r same)

theorem Shows.setTolerance (shows : e.Shows solver) {solver' : Solver method}
    (made : solver.setTolerance tolerance = .ok solver') :
    (e.call (.setTolerance tolerance)).Shows solver' := by
  cases accepted : isTolerance tolerance with
  | false =>
    simp [Solver.setTolerance, Settings.withTolerance, accepted, bind, Except.bind] at made
  | true =>
    rw [call, run_setTolerance_of_accepted accepted]
    simp only [Solver.setTolerance, Settings.withTolerance, accepted] at made
    cases made
    exact shows.adopting

theorem Shows.solve (shows : e.Shows solver) :
    (e.solve rows constants none).2.Shows (solver.solve rows constants) := by
  rw [solve_none]
  refine ⟨shows.settings, shows.formats, fun r same => ?_⟩
  have setup : e.cleared.setup = solver.settings := by
    rw [← shows.settings]
    change ({ e.settings with formats := e.formats } : Setup) = _
    rw [shows.formats]
    rfl
  cases same
  rw [← setup]
  rfl

theorem Shows.solveWithTolerance (shows : e.Shows solver) (tolerance : Float) :
    (e.solve rows constants (some tolerance)).2.Shows
      (solver.solveWithTolerance rows constants tolerance) := by
  cases accepted : isTolerance tolerance with
  | false =>
    rw [solve_of_refused accepted, Solver.solveWithTolerance_of_refused accepted]
    refine ⟨shows.settings, shows.formats, fun r same => ?_⟩
    cases same
    rfl
  | true =>
    rw [solve_of_accepted accepted, Solver.solveWithTolerance_of_accepted accepted]
    exact shows.adopting.solve

end Engine

end Stepwise.Linear
