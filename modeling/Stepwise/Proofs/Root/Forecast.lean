import Stepwise.Proofs.Root.Course
import Stepwise.Proofs.Root.Engine

/-!
# Searches foretold

What a search records and how it ends, told from the sequence of its estimates alone.

- `fault?`, `valueAt`: what an evaluator says of a point
- `Forecast`: the estimates of a search, and what each step meets
- `Forecast.Meets`: what is asked of a search that goes as foretold
- `Forecast.Describes`: the forecast is that of a rule, step by step
- `Forecast.Describes.meets`: then the report of the rule meets it
- `Engine.meets_solve`: and so does a search with the rule, up to a tolerance that is refused
-/

namespace Stepwise.Root

variable {ε σ β : Type}

/-! ## Evaluators at a point -/

/-- What is wrong with the value of a function at a point. -/
def fault? (f : Float → Except ε Float) (x : Float) : Option (Error ε) :=
  match f x with
  | .error cause => some (.evaluation x cause)
  | .ok value => if value.isFinite then none else some (.nonFinite ⟨x, value⟩)

/-- The value of a function at a point where it has one; elsewhere the number means nothing. -/
def valueAt (f : Float → Except ε Float) (x : Float) : Float :=
  match f x with
  | .error _ => 0.0
  | .ok value => value

/-- The function whose values a search sees. -/
def Problem.function (p : Problem ε) : Float → Except ε Float :=
  p.evaluator p.formula p.settings.variableName

theorem function_opened {method : Method} {e : Engine method ε} (formula : String)
    (tolerance? : Option Float) :
    (e.opened formula tolerance?).problem.function =
      e.evaluator formula e.settings.variableName := by
  cases tolerance? <;> rfl

theorem eq_ok_of_fault?_eq_none {f : Float → Except ε Float} {x : Float}
    (sound : fault? f x = none) : f x = .ok (valueAt f x) ∧ (valueAt f x).isFinite = true := by
  rw [fault?] at sound
  rw [valueAt]
  cases evaluated : f x with
  | error cause => simp [evaluated] at sound
  | ok value => simpa [evaluated] using sound

variable {p : Problem ε}

theorem Problem.sample_of_fault {x : Float} {cause : Error ε}
    (fault : fault? p.function x = some cause) : p.sample x = .error cause := by
  rw [fault?] at fault
  rw [sample, ← function]
  cases evaluated : p.function x with
  | error cause => simpa [evaluated] using fault
  | ok value =>
    simp only [evaluated] at fault ⊢
    split at fault
    next => cases fault
    next infinite =>
      cases fault
      rw [if_neg infinite]

theorem Problem.sample_of_sound {x : Float} (sound : fault? p.function x = none) :
    p.sample x = .ok ⟨x, valueAt p.function x⟩ := by
  obtain ⟨evaluated, finite⟩ := eq_ok_of_fault?_eq_none sound
  rw [sample, ← function, evaluated]
  exact if_pos finite

/-- The opening samples are those of a sound function; of two faults the first one counts. -/
theorem Problem.ending_openingSamples_of_fault {nameA nameB : String} {a b : Float}
    {cause : Error ε} (fault : (fault? p.function a).or (fault? p.function b) = some cause) :
    (p.openingSamples nameA nameB a b).ending = .error cause := by
  cases first : fault? p.function a with
  | some other =>
    rw [first] at fault
    cases fault
    exact Trail.ending_bind_of_error _ (sample_of_fault first)
  | none =>
    rw [first, Option.none_or] at fault
    refine (Trail.ending_bind_of_ok _ (sample_of_sound first)).trans ?_
    exact Trail.ending_bind_of_error _ (sample_of_fault fault)

theorem Problem.ending_openingSamples_of_sound {nameA nameB : String} {a b : Float}
    (first : fault? p.function a = none) (second : fault? p.function b = none) :
    (p.openingSamples nameA nameB a b).ending =
      .ok (⟨a, valueAt p.function a⟩, ⟨b, valueAt p.function b⟩) := by
  refine (Trail.ending_bind_of_ok _ (sample_of_sound first)).trans ?_
  exact (Trail.ending_bind_of_ok _ (sample_of_sound second)).trans rfl

/-! ## Forecasts -/

/-- The course of a search. A step is known by the number of steps before it. -/
structure Forecast (ε : Type) where
  /-- What the start fails for, if it does. -/
  start? : Option (Error ε)
  /-- What a step fails for, if it does. -/
  error? : ℕ → Option (Error ε)
  /-- The estimate that a step makes. -/
  estimate : ℕ → Float
  /-- The estimate settles the search. -/
  Settles : ℕ → Prop
  /-- The best estimate before a step. -/
  best : ℕ → Float

namespace Forecast

/-- The start and the first `m` steps leave the search open. -/
structure Open (F : Forecast ε) (m : ℕ) : Prop where
  start : F.start? = none
  made : ∀ k < m, F.error? k = none
  unsettled : ∀ k < m, ¬ F.Settles k

/-- The step after `m` others is the first one that settles the search. -/
structure Converges (F : Forecast ε) (limit m : ℕ) : Prop where
  before : F.Open m
  within : m < limit
  made : F.error? m = none
  settles : F.Settles m

/-- The search fails at its start, or with the step after `m` others. -/
inductive Fails (F : Forecast ε) (limit : ℕ) : ℕ → Error ε → Prop where
  | start {cause : Error ε} (refused : F.start? = some cause) : Fails F limit 0 cause
  | step {m : ℕ} {cause : Error ε} (before : F.Open m) (within : m < limit)
    (failed : F.error? m = some cause) : Fails F limit m cause

/-- The estimates of the first steps. -/
def estimates (F : Forecast ε) (m : ℕ) : List Float := (List.range m).map F.estimate

@[simp] theorem length_estimates (F : Forecast ε) (m : ℕ) : (F.estimates m).length = m := by
  simp [estimates]

theorem estimates_succ (F : Forecast ε) (m : ℕ) :
    F.estimates (m + 1) = F.estimates m ++ [F.estimate m] := by
  rw [estimates, List.range_succ, List.map_append]
  rfl

/-- A search of at most `limit` steps goes as foretold. -/
structure Meets (F : Forecast ε) (limit : ℕ) (outcome : Outcome) (iterations : List Float)
    (root? : Option Float) (error? : Option (Error ε)) : Prop where
  recorded : iterations = F.estimates iterations.length
  converged : ∀ m, outcome = .converged ∧ iterations.length = m + 1 ↔ F.Converges limit m
  failed : ∀ m cause, outcome = .failed ∧ iterations.length = m ∧ error? = some cause ↔
    F.Fails limit m cause
  exhausted : outcome = .exhausted ↔ F.Open limit
  settled : ∀ m, F.Converges limit m → root? = some (F.estimate m)
  left : F.Open limit → iterations.length = limit ∧ root? = some (F.best limit)

variable {F : Forecast ε} {limit m n : ℕ} {cause cause' : Error ε}

/-! ### A search ends in one way only -/

theorem Converges.not_open (converges : F.Converges limit m) (later : m < n) : ¬ F.Open n :=
  fun stays => stays.unsettled m later converges.settles

theorem Fails.not_open (fails : F.Fails limit m cause) (within : limit ≤ n) : ¬ F.Open n := by
  intro stays
  cases fails with
  | start refused =>
    rw [stays.start] at refused
    cases refused
  | step before inside failed =>
    rw [stays.made m (inside.trans_le within)] at failed
    cases failed

theorem Converges.unique (first : F.Converges limit m) (second : F.Converges limit n) : m = n := by
  by_contra different
  obtain before | after := Nat.lt_or_gt_of_ne different
  · exact first.not_open before second.before
  · exact second.not_open after first.before

theorem Converges.not_fails (converges : F.Converges limit m) : ¬ F.Fails limit n cause := by
  intro fails
  cases fails with
  | start refused =>
    rw [converges.before.start] at refused
    cases refused
  | step before _ failed =>
    obtain earlier | rfl | later := lt_trichotomy m n
    · exact converges.not_open earlier before
    · rw [converges.made] at failed
      cases failed
    · rw [converges.before.made n later] at failed
      cases failed

theorem Fails.unique (first : F.Fails limit m cause) (second : F.Fails limit n cause') :
    m = n ∧ cause = cause' := by
  cases first with
  | start refused =>
    cases second with
    | start refused' => exact ⟨rfl, Option.some.inj (refused.symm.trans refused')⟩
    | step before =>
      rw [before.start] at refused
      cases refused
  | step before _ failed =>
    cases second with
    | start refused' => rw [before.start] at refused'; cases refused'
    | step before' _ failed' =>
      obtain earlier | rfl | later := lt_trichotomy m n
      · rw [before'.made m earlier] at failed
        cases failed
      · exact ⟨rfl, Option.some.inj (failed.symm.trans failed')⟩
      · rw [before.made n later] at failed'
        cases failed'

theorem Converges.meets (converges : F.Converges limit m) :
    F.Meets limit .converged (F.estimates (m + 1)) (some (F.estimate m)) none where
  recorded := by rw [length_estimates]
  converged k := by
    rw [length_estimates]
    constructor
    · rintro ⟨-, same⟩
      rwa [← Nat.succ.inj same]
    · exact fun again => ⟨rfl, congrArg Nat.succ (converges.unique again)⟩
  failed k cause := ⟨nofun, fun fails => absurd fails converges.not_fails⟩
  exhausted := ⟨nofun, fun stays => absurd stays (converges.not_open converges.within)⟩
  settled k again := by rw [converges.unique again]
  left stays := absurd stays (converges.not_open converges.within)

theorem Fails.meets (fails : F.Fails limit m cause) :
    F.Meets limit .failed (F.estimates m) none (some cause) where
  recorded := by rw [length_estimates]
  converged k := ⟨nofun, fun converges => absurd fails converges.not_fails⟩
  failed k cause' := by
    rw [length_estimates]
    constructor
    · rintro ⟨-, rfl, same⟩
      cases same
      exact fails
    · intro again
      obtain ⟨rfl, rfl⟩ := fails.unique again
      exact ⟨rfl, rfl, rfl⟩
  exhausted := ⟨nofun, fun stays => absurd stays (fails.not_open le_rfl)⟩
  settled k converges := absurd fails converges.not_fails
  left stays := absurd stays (fails.not_open le_rfl)

theorem Open.meets (stays : F.Open limit) :
    F.Meets limit .exhausted (F.estimates limit) (some (F.best limit)) none where
  recorded := by rw [length_estimates]
  converged k := ⟨nofun, fun converges => absurd stays (converges.not_open converges.within)⟩
  failed k cause := ⟨nofun, fun fails => absurd stays (fails.not_open le_rfl)⟩
  exhausted := iff_of_true rfl stays
  settled k converges := absurd stays (converges.not_open converges.within)
  left _ := ⟨length_estimates F limit, rfl⟩

/-! ### Rules that go as foretold -/

/-- The forecast is that of a rule with these states and steps. -/
structure Describes (F : Forecast ε) (rule : Rule σ β ε) (start : Trail String (Error ε) σ)
    (state : ℕ → σ) (step : ℕ → β) : Prop where
  refused : ∀ cause, F.start? = some cause → start.ending = .error cause
  begun : F.start? = none → start.ending = .ok (state 0)
  failed : ∀ m cause, F.error? m = some cause →
    ∃ abandoned, rule.attempt (m + 1) (state m) = .error { cause, abandoned }
  made : ∀ m, F.error? m = none → rule.attempt (m + 1) (state m) = .ok (step m)
  settles : ∀ m, rule.settles (step m) = true ↔ F.Settles m
  next : ∀ m, rule.next (state m) (step m) = state (m + 1)
  estimate : ∀ m, rule.estimate (step m) = F.estimate m
  best : ∀ m, rule.best (state m) = F.best m

namespace Describes

variable {rule : Rule σ β ε} {start : Trail String (Error ε) σ} {state : ℕ → σ} {step : ℕ → β}

theorem of_attempt_ok (describes : F.Describes rule start state step) {made : β}
    (attempted : rule.attempt (m + 1) (state m) = .ok made) :
    F.error? m = none ∧ made = step m := by
  cases error : F.error? m with
  | none =>
    rw [describes.made m error] at attempted
    exact ⟨rfl, (Except.ok.inj attempted).symm⟩
  | some cause =>
    obtain ⟨abandoned, failed⟩ := describes.failed m cause error
    rw [failed] at attempted
    cases attempted

theorem of_attempt_error (describes : F.Describes rule start state step)
    {interruption : Interruption β (Error ε)}
    (attempted : rule.attempt (m + 1) (state m) = .error interruption) :
    F.error? m = some interruption.cause := by
  cases error : F.error? m with
  | none =>
    rw [describes.made m error] at attempted
    cases attempted
  | some cause =>
    obtain ⟨abandoned, failed⟩ := describes.failed m cause error
    rw [failed] at attempted
    cases attempted
    rfl

/-- Steps that leave a search open lead from one of the states to the one so many steps later. -/
theorem of_path (describes : F.Describes rule start state step) {k : ℕ} {steps : List β}
    {final : σ} (path : rule.Path (k + 1) (state k) steps final) :
    final = state (k + steps.length) ∧
      steps.map rule.estimate = (List.range steps.length).map (fun j => F.estimate (k + j)) ∧
      ∀ j < steps.length, F.error? (k + j) = none ∧ ¬ F.Settles (k + j) := by
  -- The number of steps before the path has to vary: each step hands the rest on to its successor.
  induction steps generalizing k with
  | nil =>
    cases path
    exact ⟨rfl, rfl, nofun⟩
  | cons first rest ih =>
    cases path with
    | cons made unsettled later =>
      obtain ⟨sound, rfl⟩ := describes.of_attempt_ok made
      rw [describes.next] at later
      obtain ⟨reached, estimates, stays⟩ := ih later
      refine ⟨?_, ?_, ?_⟩
      · rw [reached, List.length_cons]
        congr 1
        omega
      · rw [List.length_cons, List.range_succ_eq_map, List.map_cons, List.map_cons, List.map_map,
          estimates, describes.estimate]
        simp [Function.comp_def, Nat.add_comm, Nat.add_left_comm]
      · intro j within
        cases j with
        | zero =>
          exact ⟨sound, fun settles => by simp [(describes.settles k).2 settles] at unsettled⟩
        | succ j =>
          rw [Nat.add_comm j 1, ← Nat.add_assoc]
          exact stays j (Nat.lt_of_succ_lt_succ within)

theorem open_of_path (describes : F.Describes rule start state step) {steps : List β} {final : σ}
    (started : F.start? = none) (path : rule.Path 1 (state 0) steps final) :
    final = state steps.length ∧ steps.map rule.estimate = F.estimates steps.length ∧
      F.Open steps.length := by
  obtain ⟨reached, estimates, stays⟩ := describes.of_path path
  simp only [Nat.zero_add] at reached estimates stays
  exact ⟨reached, estimates, started, fun k before => (stays k before).1,
    fun k before => (stays k before).2⟩

variable {p : Problem ε}

/-- The report of a rule that a forecast describes. -/
theorem meets [ToString ε] {title : String} (describes : F.Describes rule start state step) :
    let r := rule.report p title start
    F.Meets p.settings.maxIterations r.outcome r.iterations r.root? r.error? := by
  dsimp only
  rw [Rule.report]
  cases started : F.start? with
  | some cause =>
    rw [describes.refused cause started]
    exact Fails.meets (.start started)
  | none =>
    rw [describes.begun started]
    dsimp only
    -- Of the run itself only its path and its ending matter from here on.
    have goes := rule.goes_run p.settings.maxIterations (state 0)
    generalize rule.run p.settings.maxIterations (state 0) = run at goes
    cases goes with
    | @settled steps _ last path made settles within =>
      obtain ⟨rfl, estimates, stays⟩ := describes.open_of_path started path
      rw [Nat.add_comm] at made
      obtain ⟨sound, rfl⟩ := describes.of_attempt_ok made
      have converges : F.Converges p.settings.maxIterations steps.length :=
        ⟨stays, within, sound, (describes.settles _).1 settles⟩
      have met := converges.meets
      rw [estimates_succ, ← estimates, ← describes.estimate, ← List.map_singleton,
        ← List.map_append] at met
      exact met
    | @exhausted steps _ path all =>
      obtain ⟨rfl, estimates, stays⟩ := describes.open_of_path started path
      rw [all] at estimates stays
      have met := stays.meets
      rw [← estimates, ← all, ← describes.best] at met
      rw [← all]
      exact met
    | @interrupted steps _ interruption path failed within =>
      obtain ⟨rfl, estimates, stays⟩ := describes.open_of_path started path
      rw [Nat.add_comm] at failed
      have fails : F.Fails p.settings.maxIterations steps.length interruption.cause :=
        .step stays within (describes.of_attempt_error failed)
      have met := fails.meets
      rw [← estimates] at met
      exact met

theorem of_getElem?_statesFrom (describes : F.Describes rule start state step)
    {remaining k j : ℕ} {reached : σ}
    (found : (rule.statesFrom (k + 1) remaining (state k))[j]? = some reached) :
    reached = state (k + j) ∧ ∀ i < j, F.error? (k + i) = none ∧ ¬ F.Settles (k + i) := by
  -- The states are listed by the same recursion as the run, so the induction is on its fuel.
  induction remaining generalizing k j with
  | zero =>
    obtain ⟨rfl, rfl⟩ : j = 0 ∧ state k = reached := by
      simpa [Scheme.statesFrom, List.getElem?_singleton] using found
    exact ⟨rfl, fun i before => absurd before i.not_lt_zero⟩
  | succ remaining ih =>
    rw [Scheme.statesFrom] at found
    cases j with
    | zero =>
      cases found
      exact ⟨rfl, fun i before => absurd before i.not_lt_zero⟩
    | succ j =>
      rw [List.getElem?_cons_succ] at found
      cases attempted : rule.attempt (k + 1) (state k) with
      | error interruption => simp [attempted] at found
      | ok made =>
        obtain ⟨sound, rfl⟩ := describes.of_attempt_ok attempted
        cases settles : rule.settles (step k) with
        | true => simp [attempted, settles] at found
        | false =>
          simp only [attempted, settles, Bool.false_eq_true, if_false, describes.next] at found
          obtain ⟨same, stays⟩ := ih found
          refine ⟨by rw [same, Nat.add_right_comm, Nat.add_assoc], fun i within => ?_⟩
          cases i with
          | zero => exact ⟨sound, by simp [← describes.settles, settles]⟩
          | succ i =>
            rw [Nat.add_comm i 1, ← Nat.add_assoc]
            exact stays i (Nat.lt_of_succ_lt_succ within)

/-- The states that a search goes through are those foretold. -/
theorem of_getElem?_states (describes : F.Describes rule start state step) {k : ℕ} {reached : σ}
    (found : (rule.states p start)[k]? = some reached) : reached = state k ∧ F.Open k := by
  rw [Rule.states] at found
  cases started : F.start? with
  | some cause => simp [describes.refused cause started] at found
  | none =>
    simp only [describes.begun started] at found
    obtain ⟨same, stays⟩ := describes.of_getElem?_statesFrom found
    simp only [Nat.zero_add] at same stays
    exact ⟨same, started, fun i before => (stays i before).1, fun i before => (stays i before).2⟩

end Describes

/-- The course of a search that is given a tolerance of its own, which is checked before anything
else. -/
def given (F : Forecast ε) (tolerance? : Option Float) : Forecast ε :=
  { F with
    start? := ((tolerance?.filter fun t => !isTolerance t).map fun t =>
      .invalidSetting (.tolerance t)).or F.start? }

theorem given_of_accepted {tolerance? : Option Float}
    (accepted : tolerance?.all isTolerance = true) : F.given tolerance? = F := by
  rw [given]
  cases tolerance? with
  | none => rfl
  | some tolerance => rw [Option.filter_some, if_neg (by simpa using accepted)]; rfl

theorem start?_given_of_refused {tolerance : Float} (refused : isTolerance tolerance = false) :
    (F.given (some tolerance)).start? = some (.invalidSetting (.tolerance tolerance)) := by
  rw [given, Option.filter_some, if_pos (by rw [refused]; rfl)]
  rfl

end Forecast

/-- A search meets what the report of its method meets, if its tolerance is accepted. -/
theorem Engine.meets_solve [ToString ε] {method : Method} {e : Engine method ε} {formula : String}
    {start : method.Start} {tolerance? : Option Float} {F : Forecast ε}
    (met : let p := (e.opened formula tolerance?).problem
      let r := method.report p start
      F.Meets p.settings.maxIterations r.outcome r.iterations r.root? r.error?) :
    let r := e.solve formula start tolerance?
    (F.given tolerance?).Meets e.settings.maxIterations r.1 r.2.iterations r.2.root?
      r.2.error? := by
  dsimp only at met ⊢
  cases accepted : tolerance?.all isTolerance with
  | true =>
    rw [settings_problem, maxIterations_opened] at met
    rw [F.given_of_accepted accepted, solve_of_all_accepted accepted]
    exact met
  | false =>
    cases tolerance? with
    | none => cases accepted
    | some tolerance =>
      rw [solve_of_refused accepted]
      exact (Forecast.Fails.start (Forecast.start?_given_of_refused accepted)).meets

end Stepwise.Root
