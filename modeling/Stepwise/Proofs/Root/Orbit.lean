import Stepwise.Proofs.Root.Forecast

/-!
# The orbits of the open methods

The secant method, the Newton-Raphson method and the fixed-point iteration go through the sequence
that their formula gives from the starting points, up to where it settles or cannot be continued.

- `secantOrbit`, `newtonOrbit`: the sequences; that of the fixed-point iteration is `Nat.iterate`
- `secantForecast`, `newtonForecast`, `fixedPointForecast`: what each of their members meets
- `describes_secant`, `describes_newtonRaphson`, `describes_fixedPoint`: the methods follow them
- `open_methods_follow_orbits`: so does every search
-/

namespace Stepwise.Root

variable {ε : Type} {p : Problem ε}

/-! ## The secant method -/

/-- Each member is where the chord through the two before it crosses zero. -/
def secantOrbit (f : Float → Float) (x0 x1 : Float) : ℕ → Float
  | 0 => x0
  | 1 => x1
  | k + 2 =>
    let earlier := secantOrbit f x0 x1 k
    let later := secantOrbit f x0 x1 (k + 1)
    later - (f later * (later - earlier)) / (f later - f earlier)

/-- A member of the orbit with the value there. -/
def secantSample (f : Float → Except ε Float) (x0 x1 : Float) (k : ℕ) : Sample :=
  let x := secantOrbit (valueAt f) x0 x1 k
  ⟨x, valueAt f x⟩

/-- Both starting points are evaluated first. A step compares the latest two values, and then
evaluates the next member. -/
def secantForecast (f : Float → Except ε Float) (tolerance x0 x1 : Float) : Forecast ε :=
  let x := secantOrbit (valueAt f) x0 x1
  let s := secantSample f x0 x1
  { start? := (fault? f x0).or (fault? f x1)
    error? := fun k =>
      if (s (k + 1)).value == (s k).value then some (.equalValues (s k) (s (k + 1)))
      else fault? f (x (k + 2))
    estimate := fun k => x (k + 2)
    Settles := fun k => (x (k + 2) - x (k + 1)).abs < tolerance
    best := fun k => x (k + 1) }

/-- The state before a step. -/
def secantState (f : Float → Except ε Float) (x0 x1 : Float) (k : ℕ) : SecantState :=
  ⟨secantSample f x0 x1 k, secantSample f x0 x1 (k + 1)⟩

theorem chordRoot_secantState (f : Float → Except ε Float) (x0 x1 : Float) (k : ℕ) :
    (secantState f x0 x1 k).chordRoot = secantOrbit (valueAt f) x0 x1 (k + 2) := rfl

theorem describes_secant (p : Problem ε) (x0 x1 : Float) :
    (secantForecast p.function p.settings.tolerance x0 x1).Describes (secant p)
      (secantStart p x0 x1) (secantState p.function x0 x1)
      fun k => ⟨secantState p.function x0 x1 k, secantSample p.function x0 x1 (k + 2)⟩ where
  refused cause refused :=
    Trail.ending_bind_of_error _ (p.ending_openingSamples_of_fault refused)
  begun sound := by
    obtain ⟨first, second⟩ := Option.or_eq_none_iff.1 sound
    exact Trail.ending_bind_of_ok _ (p.ending_openingSamples_of_sound first second)
  failed k cause failed := by
    refine ⟨none, ?_⟩
    simp only [secantForecast] at failed
    simp only [secant, chordRoot_secantState]
    split at failed
    next equal =>
      cases failed
      exact if_pos equal
    next different =>
      rw [p.sample_of_fault failed]
      exact if_neg different
  made k sound := by
    simp only [secantForecast] at sound
    simp only [secant, chordRoot_secantState]
    split at sound
    next => cases sound
    next different =>
      rw [p.sample_of_sound sound]
      exact if_neg different
  settles k := decide_eq_true_iff
  next k := rfl
  estimate k := rfl
  best k := rfl

/-- The values that a search carries from one iteration to the next are those of the function at the
points that it carries. -/
theorem carried_of_open {f : Float → Except ε Float} {tolerance x0 x1 : Float} {k : ℕ}
    (stays : (secantForecast f tolerance x0 x1).Open k) (j : ℕ) (within : j ≤ k + 1) :
    f (secantOrbit (valueAt f) x0 x1 j) = .ok (secantSample f x0 x1 j).value := by
  obtain ⟨first, second⟩ := Option.or_eq_none_iff.1 stays.start
  -- The first two members belong to the start, every other one to the step that evaluates it.
  have sound : fault? f (secantOrbit (valueAt f) x0 x1 j) = none := by
    match j with
    | 0 => exact first
    | 1 => exact second
    | j + 2 =>
      have made := stays.made j (by omega)
      simp only [secantForecast] at made
      split at made
      next => cases made
      next => exact made
  exact (eq_ok_of_fault?_eq_none sound).1

/-! ## The Newton-Raphson method -/

/-- The slope of the chord between two points on both sides. -/
def centeredDifference (f : Float → Float) (h x : Float) : Float :=
  (f (x + h) - f (x - h)) / (2.0 * h)

/-- Each member is where the tangent at the one before it crosses zero. -/
def newtonOrbit (f : Float → Float) (h x0 : Float) : ℕ → Float
  | 0 => x0
  | k + 1 =>
    let x := newtonOrbit f h x0 k
    x - f x / centeredDifference f h x

/-- A step evaluates three points, and then judges the slope. -/
def newtonForecast (f : Float → Except ε Float) (h tolerance x0 : Float) : Forecast ε :=
  let x := newtonOrbit (valueAt f) h x0
  let slope k := centeredDifference (valueAt f) h (x k)
  { start? := none
    error? := fun k =>
      (fault? f (x k)).or <| (fault? f (x k + h)).or <| (fault? f (x k - h)).or <|
        if (slope k).abs < minDerivative then some (.zeroDerivative (x k) (slope k)) else none
    estimate := fun k => x (k + 1)
    Settles := fun k => (x (k + 1) - x k).abs < tolerance
    best := x }

/-- The tangent at a member of the orbit. -/
def newtonTangent (f : Float → Except ε Float) (h x0 : Float) (k : ℕ) : Tangent :=
  let x := newtonOrbit (valueAt f) h x0 k
  ⟨⟨x, valueAt f x⟩, centeredDifference (valueAt f) h x⟩

theorem tangent_of_sound {x : Float} (base : fault? p.function x = none)
    (above : fault? p.function (x + p.settings.derivativeStep) = none)
    (below : fault? p.function (x - p.settings.derivativeStep) = none) :
    tangent p x = .ok ⟨⟨x, valueAt p.function x⟩,
      centeredDifference (valueAt p.function) p.settings.derivativeStep x⟩ := by
  rw [tangent, p.sample_of_sound base, p.sample_of_sound above, p.sample_of_sound below]
  rfl

theorem describes_newtonRaphson (p : Problem ε) (x0 : Float) :
    (newtonForecast p.function p.settings.derivativeStep p.settings.tolerance x0).Describes
      (newtonRaphson p) (newtonStart p x0)
      (newtonOrbit (valueAt p.function) p.settings.derivativeStep x0)
      (newtonTangent p.function p.settings.derivativeStep x0) where
  refused cause refused := by cases refused
  begun _ := rfl
  failed k cause failed := by
    simp only [newtonForecast, Option.or_eq_some_iff] at failed
    simp only [newtonRaphson]
    -- The first of the faults counts; a level tangent is given up only after all three values.
    obtain base | ⟨base, above | ⟨above, below | ⟨below, level⟩⟩⟩ := failed
    · refine ⟨none, ?_⟩
      rw [tangent, p.sample_of_fault base]
      rfl
    · refine ⟨none, ?_⟩
      rw [tangent, p.sample_of_sound base, p.sample_of_fault above]
      rfl
    · refine ⟨none, ?_⟩
      rw [tangent, p.sample_of_sound base, p.sample_of_sound above, p.sample_of_fault below]
      rfl
    · rw [tangent_of_sound base above below]
      split at level
      next small =>
        cases level
        exact ⟨_, if_pos small⟩
      next => cases level
  made k sound := by
    simp only [newtonForecast, Option.or_eq_none_iff] at sound
    obtain ⟨base, above, below, steep⟩ := sound
    simp only [newtonRaphson]
    rw [tangent_of_sound base above below]
    split at steep
    next => cases steep
    next notSmall => exact if_neg notSmall
  settles k := decide_eq_true_iff
  next k := rfl
  estimate k := rfl
  best k := rfl

/-! ## Fixed-point iteration -/

/-- The slope at the starting point is judged first, from the point beside it and from itself. A
step evaluates the function once. -/
def fixedPointForecast (g : Float → Except ε Float) (tolerance x0 : Float) : Forecast ε :=
  let x := fun k => (valueAt g)^[k] x0
  { start? := (fault? g (x0 + slopeStep)).or (fault? g x0)
    error? := fun k => fault? g (x k)
    estimate := fun k => x (k + 1)
    Settles := fun k => (x (k + 1) - x k).abs < tolerance
    best := x }

theorem describes_fixedPoint (p : Problem ε) (x0 : Float) :
    (fixedPointForecast p.function p.settings.tolerance x0).Describes (fixedPoint p)
      (fixedPointStart p x0) (fun k => (valueAt p.function)^[k] x0)
      fun k => ⟨(valueAt p.function)^[k] x0, (valueAt p.function)^[k + 1] x0⟩ where
  refused cause refused := by
    simp only [fixedPointForecast, Option.or_eq_some_iff] at refused
    rw [fixedPointStart]
    obtain above | ⟨above, base⟩ := refused
    · exact Trail.ending_bind_of_error _ (p.sample_of_fault above)
    · refine (Trail.ending_bind_of_ok _ (p.sample_of_sound above)).trans ?_
      exact Trail.ending_bind_of_error _ (p.sample_of_fault base)
  begun sound := by
    obtain ⟨above, base⟩ := Option.or_eq_none_iff.1 sound
    rw [fixedPointStart]
    refine (Trail.ending_bind_of_ok _ (p.sample_of_sound above)).trans ?_
    refine (Trail.ending_bind_of_ok _ (p.sample_of_sound base)).trans ?_
    simp only [Trail.ending_write_bind]
    split <;> rfl
  failed k cause failed := by
    refine ⟨none, ?_⟩
    simp only [fixedPoint]
    rw [p.sample_of_fault failed]
  made k sound := by
    simp only [fixedPoint]
    rw [p.sample_of_sound sound, Function.iterate_succ_apply']
  settles k := decide_eq_true_iff
  next k := rfl
  estimate k := rfl
  best k := rfl

/-! ## Searches -/

/-- The open methods go through the orbits of their formulas, whatever the evaluator, the starting
points, the tolerance and the limit. They end where an orbit first settles, at the first error, or
at the limit. -/
theorem open_methods_follow_orbits [ToString ε] (formula : String) (tolerance? : Option Float) :
    (∀ (e : Engine .secant ε) (x0 x1 : Float),
      let p := (e.opened formula tolerance?).problem
      let f := e.evaluator formula e.settings.variableName
      let r := e.solve formula (x0, x1) tolerance?
      ((secantForecast f (tolerance?.getD e.settings.tolerance) x0 x1).given tolerance?).Meets
        e.settings.maxIterations r.1 r.2.iterations r.2.root? r.2.error? ∧
      ∀ k state, ((secant p).states p (secantStart p x0 x1))[k]? = some state →
        state = secantState f x0 x1 k ∧ f state.earlier.point = .ok state.earlier.value ∧
          f state.later.point = .ok state.later.value) ∧
    (∀ (e : Engine .newtonRaphson ε) (x0 : Float),
      let f := e.evaluator formula e.settings.variableName
      let r := e.solve formula x0 tolerance?
      ((newtonForecast f e.settings.derivativeStep (tolerance?.getD e.settings.tolerance) x0).given
        tolerance?).Meets e.settings.maxIterations r.1 r.2.iterations r.2.root? r.2.error?) ∧
    ∀ (e : Engine .fixedPoint ε) (x0 : Float),
      let g := e.evaluator formula e.settings.variableName
      let r := e.solve formula x0 tolerance?
      ((fixedPointForecast g (tolerance?.getD e.settings.tolerance) x0).given tolerance?).Meets
        e.settings.maxIterations r.1 r.2.iterations r.2.root? r.2.error? := by
  refine ⟨fun e x0 x1 => ⟨?_, fun k state reached => ?_⟩, fun e x0 => ?_, fun e x0 => ?_⟩
  · have describes := describes_secant (e.opened formula tolerance?).problem x0 x1
    rw [function_opened, Engine.settings_problem, Engine.tolerance_opened] at describes
    exact Engine.meets_solve describes.meets
  · have describes := describes_secant (e.opened formula tolerance?).problem x0 x1
    rw [function_opened] at describes
    obtain ⟨rfl, stays⟩ := describes.of_getElem?_states reached
    exact ⟨rfl, carried_of_open stays k (by omega), carried_of_open stays (k + 1) le_rfl⟩
  · have describes := describes_newtonRaphson (e.opened formula tolerance?).problem x0
    rw [function_opened, Engine.settings_problem, Engine.tolerance_opened,
      Engine.derivativeStep_opened] at describes
    exact Engine.meets_solve describes.meets
  · have describes := describes_fixedPoint (e.opened formula tolerance?).problem x0
    rw [function_opened, Engine.settings_problem, Engine.tolerance_opened] at describes
    exact Engine.meets_solve describes.meets

/-- The secant method reaches a second state on the way to the square root of two. -/
theorem open_methods_follow_orbits_square_root :
    let f : Float → Except String Float := fun x => .ok (x * x - 2.0)
    let e : Engine .secant String := .make { maxIterations := 2 } fun _ _ => f
    let p := (e.opened "x^2 - 2" (some 0.5)).problem
    ∃ state, ((secant p).states p (secantStart p 1.0 2.0))[1]? = some state ∧
      state = secantState f 1.0 2.0 1 ∧ f state.later.point = .ok state.later.value := by
  intro f e p
  have reached : ((secant p).states p (secantStart p 1.0 2.0))[1]?.isSome = true := by
    decide +kernel
  obtain ⟨state, reached⟩ := Option.isSome_iff_exists.1 reached
  obtain ⟨orbit, -, later⟩ :=
    ((open_methods_follow_orbits "x^2 - 2" (some 0.5)).1 e 1.0 2.0).2 1 state reached
  exact ⟨state, reached, orbit, later⟩

end Stepwise.Root
