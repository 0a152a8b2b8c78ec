import Stepwise.Proofs.Root.Bracket
import Stepwise.Proofs.Root.Forecast

/-!
# The endpoints of the bracketing methods

The bracketing methods carry the values at the ends of their bracket along. They go through the
intervals that follow from the endpoints and the function alone, up to where one settles or cannot
be narrowed.

- `Ends`, `Ends.ordered`, `Ends.narrow`, `Ends.after`: intervals, without any values
- `bracketForecast`, `bisectionForecast`, `falsePositionForecast`: what each interval meets
- `describes_bisection`, `describes_falsePosition`: the methods follow the intervals
- `bracketing_follows_endpoints`: so does every search, and the values it carries stay those of the
  function
-/

namespace Stepwise.Root

variable {ε : Type} {p : Problem ε}

/-! ## Intervals -/

/-- The ends of an interval. -/
structure Ends where
  left : Float
  right : Float

namespace Ends

/-- The interval between two points. -/
def ordered (a b : Float) : Ends := if a < b then ⟨a, b⟩ else ⟨b, a⟩

/-- Puts a point in place of the right end if its value and that at the left end have a product
below zero, and in place of the left end otherwise. -/
def narrow (f : Float → Float) (guess : Ends → Float) (i : Ends) : Ends :=
  if f i.left * f (guess i) < 0.0 then { i with right := guess i } else { i with left := guess i }

/-- The interval after so many steps. -/
def after (f : Float → Float) (guess : Ends → Float) (a b : Float) (k : ℕ) : Ends :=
  (narrow f guess)^[k] (ordered a b)

/-- The bracket on an interval. -/
def bracket (f : Float → Float) (i : Ends) : Bracket :=
  ⟨⟨i.left, f i.left⟩, ⟨i.right, f i.right⟩⟩

/-- The step that takes a sample in an interval. -/
def step (f : Float → Float) (guess : Ends → Float) (i : Ends) : BracketStep :=
  ⟨i.bracket f, ⟨guess i, f (guess i)⟩⟩

/-- The middle of an interval. -/
def middle (i : Ends) : Float := 0.5 * (i.left + i.right)

/-- Where the chord over an interval crosses zero. -/
def chordRoot (f : Float → Float) (i : Ends) : Float :=
  i.left - (f i.left * (i.right - i.left)) / (f i.right - f i.left)

variable {f : Float → Float} {guess : Ends → Float} {i : Ends}

theorem after_succ (a b : Float) (k : ℕ) :
    after f guess a b (k + 1) = (after f guess a b k).narrow f guess :=
  Function.iterate_succ_apply' ..

/-- A value goes with its point into the bracket on the narrowed interval. -/
theorem bracket_narrow :
    (i.narrow f guess).bracket f = (i.bracket f).shrink (i.step f guess).estimate := by
  -- Both sides test the same product, once with the values and once with the function.
  have product : (i.bracket f).left.value * (i.step f guess).estimate.value =
    f i.left * f (guess i) := rfl
  rw [narrow, Bracket.shrink, product]
  split <;> rfl

/-- What holds of both ends and of a new point holds of both ends afterwards. -/
theorem both_narrow {P : Float → Prop} (left : P i.left) (right : P i.right) (new : P (guess i)) :
    P (i.narrow f guess).left ∧ P (i.narrow f guess).right := by
  rw [narrow]
  split
  · exact ⟨left, new⟩
  · exact ⟨new, right⟩

end Ends

/-! ## Forecasts -/

/-- Both ends are evaluated first, in the order in which they are given, and their values are
compared. A step evaluates one point, by which the interval is narrowed. -/
def bracketForecast (f : Float → Except ε Float) (guess : Ends → Float)
    (Settles : Ends → Float → Prop) (a b : Float) : Forecast ε :=
  let v := valueAt f
  let i := Ends.after v guess a b
  { start? := (fault? f a).or <| (fault? f b).or <|
      if v a * v b >= 0.0 then some (.noSignChange ⟨a, v a⟩ ⟨b, v b⟩) else none
    error? := fun k => fault? f (guess (i k))
    estimate := fun k => guess (i k)
    Settles := fun k => Settles (i k) (guess (i k))
    best := fun k => (i k).middle }

/-- The course of halving. -/
def bisectionForecast (f : Float → Except ε Float) (tolerance a b : Float) : Forecast ε :=
  bracketForecast f Ends.middle
    (fun i c => (valueAt f c).abs < tolerance ∨ 0.5 * (i.right - i.left) < tolerance) a b

/-- The course of cutting along chords. -/
def falsePositionForecast (f : Float → Except ε Float) (tolerance a b : Float) : Forecast ε :=
  bracketForecast f (Ends.chordRoot (valueAt f))
    (fun i c => (valueAt f c).abs < tolerance ∨ i.right - i.left < tolerance ∨
      (c == i.left) = true ∨ (c == i.right) = true) a b

section

variable {f : Float → Except ε Float} {guess : Ends → Float} {Settles : Ends → Float → Prop}
  {a b : Float}

/-- The values at the ends are defined as long as a search goes on. -/
theorem sound_of_open {k : ℕ} (stays : (bracketForecast f guess Settles a b).Open k) :
    let i := Ends.after (valueAt f) guess a b k
    fault? f i.left = none ∧ fault? f i.right = none := by
  induction k with
  | zero =>
    have started := stays.start
    simp only [bracketForecast, Option.or_eq_none_iff] at started
    obtain ⟨first, second, -⟩ := started
    change fault? f (Ends.ordered a b).left = none ∧ fault? f (Ends.ordered a b).right = none
    rw [Ends.ordered]
    split
    · exact ⟨first, second⟩
    · exact ⟨second, first⟩
  | succ k ih =>
    -- The new end is the estimate of the step before, which was made.
    obtain ⟨left, right⟩ := ih ⟨stays.start, fun j before => stays.made j (by omega),
      fun j before => stays.unsettled j (by omega)⟩
    rw [Ends.after_succ]
    exact Ends.both_narrow (P := (fault? f · = none)) left right (stays.made k k.lt_succ_self)

/-- The values of a bracket are those of the function at its ends. -/
structure Bracket.Samples (f : Float → Except ε Float) (k : Bracket) : Prop where
  left : f k.left.point = .ok k.left.value
  right : f k.right.point = .ok k.right.value

theorem samples_of_open {k : ℕ} (stays : (bracketForecast f guess Settles a b).Open k) :
    ((Ends.after (valueAt f) guess a b k).bracket (valueAt f)).Samples f := by
  obtain ⟨left, right⟩ := sound_of_open stays
  exact ⟨(eq_ok_of_fault?_eq_none left).1, (eq_ok_of_fault?_eq_none right).1⟩

end

/-! ## Methods -/

theorem Ends.bracket_ordered (f : Float → Float) (a b : Float) :
    (ordered a b).bracket f = .between ⟨a, f a⟩ ⟨b, f b⟩ := by
  rw [ordered, Bracket.between]
  split <;> rfl

theorem make_eq_of_sound {a b : Float} (first : fault? p.function a = none)
    (second : fault? p.function b = none) :
    let v := valueAt p.function
    Bracket.make (ε := ε) ⟨a, v a⟩ ⟨b, v b⟩ =
      if v a * v b >= 0.0 then .error (.noSignChange ⟨a, v a⟩ ⟨b, v b⟩)
      else .ok ((Ends.ordered a b).bracket v) := by
  intro v
  rw [Ends.bracket_ordered]
  exact Bracket.make_of_isFinite (eq_ok_of_fault?_eq_none first).2
    (eq_ok_of_fault?_eq_none second).2

theorem describes_bracketing (p : Problem ε) (a b : Float) {guess : Bracket → Float}
    {settles : BracketStep → Bool} {how : Bracket → String} {remarks : BracketStep → List String}
    {guess' : Ends → Float} {Settles : Ends → Float → Prop}
    (guesses : ∀ i : Ends, guess (i.bracket (valueAt p.function)) = guess' i)
    (settled : ∀ i : Ends, settles (i.step (valueAt p.function) guess') = true ↔
      Settles i (guess' i)) :
    let v := valueAt p.function
    let i := Ends.after v guess' a b
    (bracketForecast p.function guess' Settles a b).Describes
      (bracketing p guess settles how remarks) (bracketStart p a b)
      (fun k => (i k).bracket v) fun k => (i k).step v guess' where
  refused cause refused := by
    simp only [bracketForecast, Option.or_eq_some_iff] at refused
    obtain first | ⟨first, second | ⟨second, signs⟩⟩ := refused
    · exact Trail.ending_bind_of_error _
        (p.ending_openingSamples_of_fault (by rw [first, Option.some_or]))
    · exact Trail.ending_bind_of_error _
        (p.ending_openingSamples_of_fault (by rw [first, second, Option.none_or]))
    · refine (Trail.ending_bind_of_ok _ (p.ending_openingSamples_of_sound first second)).trans ?_
      split at signs
      next same =>
        cases signs
        exact (make_eq_of_sound first second).trans (if_pos same)
      next => cases signs
  begun sound := by
    simp only [bracketForecast, Option.or_eq_none_iff] at sound
    obtain ⟨first, second, signs⟩ := sound
    refine (Trail.ending_bind_of_ok _ (p.ending_openingSamples_of_sound first second)).trans ?_
    split at signs
    next => cases signs
    next opposite => exact (make_eq_of_sound first second).trans (if_neg opposite)
  failed k cause failed := by
    refine ⟨none, ?_⟩
    simp only [bracketing, guesses]
    rw [p.sample_of_fault failed]
  made k sound := by
    simp only [bracketing, guesses]
    rw [p.sample_of_sound sound]
    rfl
  settles k := settled _
  next k := by
    rw [Ends.after_succ]
    exact Ends.bracket_narrow.symm
  estimate k := rfl
  best k := rfl

theorem describes_bisection (p : Problem ε) (a b : Float) :
    let v := valueAt p.function
    let i := Ends.after v Ends.middle a b
    (bisectionForecast p.function p.settings.tolerance a b).Describes (bisection p)
      (bracketStart p a b) (fun k => (i k).bracket v) fun k => (i k).step v Ends.middle := by
  refine describes_bracketing p a b (fun i => rfl) fun i => ?_
  simp only [Bool.or_eq_true, decide_eq_true_eq]
  rfl

theorem describes_falsePosition (p : Problem ε) (a b : Float) :
    let v := valueAt p.function
    let i := Ends.after v (Ends.chordRoot v) a b
    (falsePositionForecast p.function p.settings.tolerance a b).Describes (falsePosition p)
      (bracketStart p a b) (fun k => (i k).bracket v) fun k => (i k).step v (Ends.chordRoot v) := by
  refine describes_bracketing p a b (fun i => rfl) fun i => ?_
  simp only [falsePositionWithin, Bracket.isEnd, Bool.or_eq_true, decide_eq_true_eq, or_assoc]
  rfl

/-! ## Searches -/

/-- The bracketing methods go through the intervals that follow from the endpoints, whatever the
evaluator, the endpoints, the tolerance and the limit, and the values that they carry along are
those of the function. They end with the first interval that settles, at the first error, or at the
limit with the middle of the interval reached. -/
theorem bracketing_follows_endpoints [ToString ε] (formula : String) (tolerance? : Option Float)
    (a b : Float) :
    (∀ e : Engine .bisection ε,
      let p := (e.opened formula tolerance?).problem
      let f := e.evaluator formula e.settings.variableName
      let v := valueAt f
      let r := e.solve formula (a, b) tolerance?
      ((bisectionForecast f (tolerance?.getD e.settings.tolerance) a b).given tolerance?).Meets
        e.settings.maxIterations r.1 r.2.iterations r.2.root? r.2.error? ∧
      ∀ k bracket, ((bisection p).states p (bracketStart p a b))[k]? = some bracket →
        bracket = (Ends.after v Ends.middle a b k).bracket v ∧ bracket.Samples f) ∧
    ∀ e : Engine .falsePosition ε,
      let p := (e.opened formula tolerance?).problem
      let f := e.evaluator formula e.settings.variableName
      let v := valueAt f
      let r := e.solve formula (a, b) tolerance?
      ((falsePositionForecast f (tolerance?.getD e.settings.tolerance) a b).given tolerance?).Meets
        e.settings.maxIterations r.1 r.2.iterations r.2.root? r.2.error? ∧
      ∀ k bracket, ((falsePosition p).states p (bracketStart p a b))[k]? = some bracket →
        bracket = (Ends.after v (Ends.chordRoot v) a b k).bracket v ∧ bracket.Samples f := by
  refine ⟨fun e => ⟨?_, fun k bracket reached => ?_⟩, fun e => ⟨?_, fun k bracket reached => ?_⟩⟩
  · have describes := describes_bisection (e.opened formula tolerance?).problem a b
    rw [function_opened, Engine.settings_problem, Engine.tolerance_opened] at describes
    exact Engine.meets_solve describes.meets
  · have describes := describes_bisection (e.opened formula tolerance?).problem a b
    rw [function_opened] at describes
    obtain ⟨rfl, stays⟩ := describes.of_getElem?_states reached
    exact ⟨rfl, samples_of_open stays⟩
  · have describes := describes_falsePosition (e.opened formula tolerance?).problem a b
    rw [function_opened, Engine.settings_problem, Engine.tolerance_opened] at describes
    exact Engine.meets_solve describes.meets
  · have describes := describes_falsePosition (e.opened formula tolerance?).problem a b
    rw [function_opened] at describes
    obtain ⟨rfl, stays⟩ := describes.of_getElem?_states reached
    exact ⟨rfl, samples_of_open stays⟩

/-- With the endpoints the other way round, cutting along chords narrows the bracket twice on the way
to the square root of two. -/
theorem bracketing_follows_endpoints_square_root :
    let f : Float → Except String Float := fun x => .ok (x * x - 2.0)
    let e : Engine .falsePosition String := .make { maxIterations := 2 } fun _ _ => f
    let p := (e.opened "x^2 - 2" (some 0.0078125)).problem
    ∃ bracket, ((falsePosition p).states p (bracketStart p 2.0 1.0))[2]? = some bracket ∧
      bracket.Samples f := by
  intro f e p
  have reached : ((falsePosition p).states p (bracketStart p 2.0 1.0))[2]?.isSome = true := by
    decide +kernel
  obtain ⟨bracket, reached⟩ := Option.isSome_iff_exists.1 reached
  obtain ⟨-, samples⟩ :=
    ((bracketing_follows_endpoints "x^2 - 2" (some 0.0078125) 2.0 1.0).2 e).2 2 bracket reached
  exact ⟨bracket, reached, samples⟩

end Stepwise.Root
