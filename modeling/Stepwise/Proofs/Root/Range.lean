import Stepwise.Proofs.Binary64.Range
import Stepwise.Proofs.Binary64.Total
import Stepwise.Proofs.Except
import Stepwise.Proofs.Root.Enclosure

/-!
# Searches that stay in range

A search that does not fail has a root, but nothing looks at the points that it goes through, only
at the values there. What it reports is finite as long as the numbers on the way are in range.

- `Report.IsFinite`: what is asked of a report
- `Rule.isFinite_iff_within`: one step after another
- `isFinite_chord_iff`, `Tangent.isFinite_zero_iff`: when the zero of a line is finite
- `Method.InRange`, `Method.isFinite_report_iff`: which searches report finite numbers only
- `isFinite_bisection_of_double`: halving between points that are not too great does
-/

namespace Stepwise.Root

open Binary64

variable {ε σ β : Type} {p : Problem ε}

/-- The numbers of a report are finite: the estimates, and the root if there is one. -/
structure Report.IsFinite (r : Report ε) : Prop where
  iterations : ∀ x ∈ r.iterations, x.isFinite = true
  root : ∀ x ∈ r.root?, x.isFinite = true

instance (r : Report ε) : Decidable r.IsFinite :=
  decidable_of_iff ((∀ x ∈ r.iterations, x.isFinite = true) ∧ ∀ x ∈ r.root?, x.isFinite = true)
    ⟨fun both => ⟨both.1, both.2⟩, fun finite => ⟨finite.iterations, finite.root⟩⟩

/-! ## Steps -/

namespace Rule

/-- The completed steps of a search have a property, and the state that is left when they do not
settle it has another. -/
structure Within (rule : Rule σ β ε) (p : Problem ε) (start : Trail String (Error ε) σ)
    (fits : β → Prop) (fitsLast : σ → Prop) : Prop where
  steps : ∀ step ∈ rule.steps p start, fits step
  final : ∀ s ∈ rule.final? p start, fitsLast s

/-- Where finite estimates lead from sound states to sound states, it is enough to know of each step
when its estimate is finite. -/
theorem isFinite_iff_within [ToString ε] {rule : Rule σ β ε} {title : String}
    {start : Trail String (Error ε) σ} {fits : β → Prop} {fitsLast : σ → Prop} (sound : σ → Prop)
    (first : ∀ s, start.ending = .ok s → sound s)
    (estimate : ∀ number s step, rule.attempt number s = .ok step → sound s →
      ((rule.estimate step).isFinite = true ↔ fits step))
    (next : ∀ number s step, rule.attempt number s = .ok step → sound s →
      (rule.estimate step).isFinite = true → sound (rule.next s step))
    (best : ∀ s, sound s → ((rule.best s).isFinite = true ↔ fitsLast s)) :
    (rule.report p title start).IsFinite ↔ rule.Within p start fits fitsLast := by
  -- Both directions go through the states in order: the estimates up to a state being finite, for
  -- whatever reason, the state is sound.
  have states {harmless : β → Prop} (all : ∀ step ∈ rule.steps p start, harmless step)
      (finite : ∀ number s step, rule.attempt number s = .ok step → sound s → harmless step →
        (rule.estimate step).isFinite = true) :
      ∀ s ∈ rule.states p start, sound s := by
    have unsettled (step) (mem : step ∈ rule.steps p start) (_ : rule.settles step = false) :
        harmless step := all step mem
    have chain : (rule.states p start).IsChain (fun _ _ => True) ∧
        ∀ s ∈ rule.states p start, sound s := by
      refine Rule.isChain_states ?_ unsettled first
      intro number s _ step made _ unharmed holds
      exact ⟨trivial, next number s step made holds (finite number s step made holds unharmed)⟩
    exact chain.2
  constructor
  · intro finite
    have estimates (step) (mem : step ∈ rule.steps p start) :
        (rule.estimate step).isFinite = true := by
      refine finite.iterations _ ?_
      rw [iterations_report]
      exact List.mem_map_of_mem mem
    have all := states estimates fun _ _ _ _ _ => id
    refine ⟨fun step mem => ?_, fun s left => ?_⟩
    · obtain ⟨number, s, reached, made, -⟩ := exists_state_of_mem_steps mem
      exact (estimate number s step made (all s reached)).1 (estimates step mem)
    · exact (best s (all s (mem_states_of_final left))).1
        (finite.root _ (root?_report_of_final left))
  · rintro ⟨steps, final⟩
    have all := states steps fun number s step made holds => (estimate number s step made holds).2
    have estimates (step) (mem : step ∈ rule.steps p start) :
        (rule.estimate step).isFinite = true := by
      obtain ⟨number, s, reached, made, -⟩ := exists_state_of_mem_steps mem
      exact (estimate number s step made (all s reached)).2 (steps step mem)
    refine ⟨?_, fun x found => ?_⟩
    · rw [iterations_report]
      exact List.forall_mem_map.2 estimates
    · obtain ⟨step, mem, -, rfl⟩ | ⟨s, left, rfl⟩ := root?_report found
      · exact estimates step mem
      · exact (best s (all s (mem_states_of_final left))).2 (final s left)

end Rule

/-! ## Lines -/

/-- The finite samples. -/
structure Sample.IsFinite (s : Sample) : Prop where
  point : s.point.isFinite = true
  value : s.value.isFinite = true

/-- On the way to `x - n / d`, the quotient and the difference are in range. -/
structure CrossingInRange (x n d : Float) : Prop where
  quotient : InRange (value n / value d)
  difference : InRange (value x - value (n / d))

/-- On the way to where the chord through two samples crosses zero, seen from one of them, no number
is out of range. Where the rise is, the quotient vanishes. -/
structure ChordInRange (base first last : Sample) : Prop where
  run : InRange (value last.point - value first.point)
  product : InRange (value base.value * value (last.point - first.point))
  crossing : InRange (value last.value - value first.value) →
    CrossingInRange base.point (base.value * (last.point - first.point))
      (last.value - first.value)

theorem isFinite_chord_iff {base first last : Sample} (baseFinite : base.IsFinite)
    (firstFinite : first.IsFinite) (lastFinite : last.IsFinite) :
    (base.point - base.value * (last.point - first.point) / (last.value - first.value)).isFinite =
        true ↔
      value first.value ≠ value last.value ∧ ChordInRange base first last := by
  have rise := isFinite_sub_iff lastFinite.value firstFinite.value
  have number := (computes_sub lastFinite.value firstFinite.value).isNaN
  have level (finite : (last.value - first.value).isFinite = true) :
      value (last.value - first.value) = 0 ↔ value first.value = value last.value :=
    (value_sub_eq_zero_iff lastFinite.value firstFinite.value finite).trans eq_comm
  have run := isFinite_sub_iff lastFinite.point firstFinite.point
  have product (finite : (last.point - first.point).isFinite = true) :=
    isFinite_mul_iff baseFinite.value finite
  rw [isFinite_sub_div_iff baseFinite.point]
  constructor
  · rintro ⟨dividend, -, crossing⟩
    have width := isFinite_of_mul_right dividend
    -- A level chord has a rise in range, which is zero.
    refine ⟨fun same => ?_, run.1 width, (product width).1 dividend, fun inRange => ?_⟩
    · have finite : (last.value - first.value).isFinite = true := by
        rw [rise, same, sub_self]
        exact inRange_zero
      exact (crossing finite).1 ((level finite).2 same)
    · obtain ⟨-, quotient, difference⟩ := crossing (rise.2 inRange)
      exact ⟨quotient, difference⟩
  · rintro ⟨slanted, inRange⟩
    refine ⟨(product (run.2 inRange.run)).2 inRange.product, number, fun finite => ?_⟩
    obtain ⟨quotient, difference⟩ := inRange.crossing (rise.1 finite)
    exact ⟨(level finite).not.2 slanted, quotient, difference⟩

/-- On the way to where a tangent crosses zero, no number is out of range. Where the derivative is,
the quotient vanishes. -/
structure Tangent.InRange (t : Tangent) : Prop where
  number : t.derivative.isNaN = false
  crossing : t.derivative.isFinite = true → CrossingInRange t.base.point t.base.value t.derivative

theorem Tangent.isFinite_zero_iff {t : Tangent} (finite : t.base.IsFinite)
    (steep : ¬ t.derivative.abs < minDerivative) : t.zero.isFinite = true ↔ t.InRange := by
  have nonzero (number : t.derivative.isNaN = false) (whole : t.derivative.isFinite = true) :
      value t.derivative ≠ 0 := by
    intro zero
    obtain lt | gt := sign_of_not_abs_lt number (by decide +kernel) steep
    · exact ((lt_zero_iff whole).1 lt).ne zero
    · exact ((zero_lt_iff whole).1 gt).ne' zero
  rw [zero, isFinite_sub_div_iff finite.point]
  constructor
  · rintro ⟨-, number, crossing⟩
    exact ⟨number, fun whole => ⟨(crossing whole).2.1, (crossing whole).2.2⟩⟩
  · rintro ⟨number, crossing⟩
    exact ⟨finite.value, number, fun whole =>
      ⟨nonzero number whole, (crossing whole).quotient, (crossing whole).difference⟩⟩

theorem Problem.isFinite_sample {x : Float} {s : Sample} (sampled : p.sample x = .ok s)
    (finite : x.isFinite = true) : s.IsFinite :=
  ⟨(p.point_of_sample sampled).symm ▸ finite, p.isFinite_of_sample sampled⟩

/-! ## Brackets -/

/-- The sum of the ends of a bracket is in range. -/
def Bracket.MiddleInRange (k : Bracket) : Prop :=
  InRange (value k.left.point + value k.right.point)

/-- The zero of the chord is in range, and the chord is not level. -/
def Bracket.ChordInRange (k : Bracket) : Prop :=
  value k.left.value ≠ value k.right.value ∧ Root.ChordInRange k.left k.left k.right

theorem Bracket.hasMiddle_iff {k : Bracket} (left : k.left.point.isFinite = true)
    (right : k.right.point.isFinite = true) : k.HasMiddle ↔ k.MiddleInRange :=
  isFinite_add_iff left right

/-- A bracket of finite samples. -/
structure Bracket.IsFinite (k : Bracket) : Prop where
  left : k.left.IsFinite
  right : k.right.IsFinite

theorem Bracket.IsFinite.isFinite_midpoint_iff {k : Bracket} (finite : k.IsFinite) :
    k.midpoint.isFinite = true ↔ k.MiddleInRange := by
  rw [← hasMiddle_iff finite.left.point finite.right.point]
  exact ⟨hasMiddle_of_isFinite, isFinite_half⟩

section

variable {guess : Bracket → Float} {settles : BracketStep → Bool} {how : Bracket → String}
  {remarks : BracketStep → List String} {a b : Float}

theorem isFinite_of_bracketStart {k : Bracket} (first : a.isFinite = true)
    (second : b.isFinite = true) (started : (bracketStart p a b).ending = .ok k) : k.IsFinite := by
  obtain ⟨s, t, sampled, sampled', made⟩ := ending_bracketStart started
  obtain ⟨left, right⟩ := Bracket.ends_of_make Sample.IsFinite made
    (p.isFinite_sample sampled first) (p.isFinite_sample sampled' second)
  exact ⟨left, right⟩

theorem isFinite_bracketing_iff [ToString ε] {rule : Rule Bracket BracketStep ε}
    (kind : rule = bracketing p guess settles how remarks) {title : String}
    (first : a.isFinite = true) (second : b.isFinite = true) {fits : Bracket → Prop}
    (exact : ∀ k : Bracket, k.IsFinite → ((guess k).isFinite = true ↔ fits k)) :
    (rule.report p title (bracketStart p a b)).IsFinite ↔
      rule.Within p (bracketStart p a b) (fun step => fits step.bracket)
        Bracket.MiddleInRange := by
  subst kind
  refine Rule.isFinite_iff_within Bracket.IsFinite
    (fun k => isFinite_of_bracketStart first second) ?_ ?_
    fun k finite => finite.isFinite_midpoint_iff
  · intro _ k step made finite
    obtain ⟨rfl, point, -⟩ := attempt_bracketing made
    rw [← exact _ finite, ← point]
    rfl
  · intro _ k step made finite estimate
    obtain ⟨rfl, -, whole⟩ := attempt_bracketing made
    obtain ⟨left, right⟩ := Bracket.ends_shrink Sample.IsFinite finite.left finite.right
      ⟨estimate, whole⟩
    exact ⟨left, right⟩

theorem isFinite_bisection_iff [ToString ε] {title : String} (first : a.isFinite = true)
    (second : b.isFinite = true) :
    ((bisection p).report p title (bracketStart p a b)).IsFinite ↔
      (bisection p).Within p (bracketStart p a b) (fun step => step.bracket.MiddleInRange)
        Bracket.MiddleInRange :=
  isFinite_bracketing_iff rfl first second fun _ finite => finite.isFinite_midpoint_iff

theorem isFinite_falsePosition_iff [ToString ε] {title : String} (first : a.isFinite = true)
    (second : b.isFinite = true) :
    ((falsePosition p).report p title (bracketStart p a b)).IsFinite ↔
      (falsePosition p).Within p (bracketStart p a b) (fun step => step.bracket.ChordInRange)
        Bracket.MiddleInRange :=
  isFinite_bracketing_iff rfl first second fun _ finite =>
    isFinite_chord_iff finite.left finite.left finite.right

end

/-! ## Open methods -/

/-- The zero of the chord through the two latest estimates is in range. -/
def SecantState.ChordInRange (s : SecantState) : Prop := Root.ChordInRange s.later s.earlier s.later

theorem attempt_secant {count : Nat} {state : SecantState} {step : SecantStep}
    (made : (secant p).attempt count state = .ok step) :
    (state.later.value == state.earlier.value) = false ∧ step.state = state ∧
      p.sample state.chordRoot = .ok step.estimate := by
  simp only [secant] at made
  split at made
  next => cases made
  next slanted =>
    split at made
    next => cases made
    next sampled =>
      cases made
      exact ⟨Bool.eq_false_of_not_eq_true slanted, rfl, sampled⟩

theorem attempt_newtonRaphson {count : Nat} {x : Float} {t : Tangent}
    (made : (newtonRaphson p).attempt count x = .ok t) :
    p.sample x = .ok t.base ∧ ¬ t.derivative.abs < minDerivative := by
  simp only [newtonRaphson] at made
  split at made
  next => cases made
  next drawn =>
    split at made
    next => cases made
    next steep =>
      cases made
      simp only [tangent, bind_eq_ok_iff] at drawn
      obtain ⟨base, sampled, above, -, below, -, same⟩ := drawn
      cases same
      exact ⟨sampled, steep⟩

theorem isFinite_secant_iff [ToString ε] {title : String} {x0 x1 : Float}
    (first : x0.isFinite = true) (second : x1.isFinite = true) :
    ((secant p).report p title (secantStart p x0 x1)).IsFinite ↔
      (secant p).Within p (secantStart p x0 x1) (fun step => step.state.ChordInRange)
        fun _ => True := by
  refine Rule.isFinite_iff_within
    (fun state => state.earlier.IsFinite ∧ state.later.IsFinite) ?_ ?_ ?_ ?_
  · intro state started
    obtain ⟨samples, sampled, same⟩ := Trail.ending_bind_eq_ok_iff.1 started
    obtain ⟨left, right⟩ := ending_openingSamples sampled
    cases same
    exact ⟨p.isFinite_sample left first, p.isFinite_sample right second⟩
  · rintro _ state step made ⟨earlier, later⟩
    obtain ⟨slanted, rfl, sampled⟩ := attempt_secant made
    have rises : value step.state.earlier.value ≠ value step.state.later.value := by
      rw [ne_comm, Ne, ← beq_iff later.value earlier.value, slanted]
      exact Bool.false_ne_true
    change step.estimate.point.isFinite = true ↔ _
    rw [p.point_of_sample sampled, SecantState.chordRoot, isFinite_chord_iff later earlier later]
    exact and_iff_right rises
  · rintro _ state step made ⟨-, later⟩ estimate
    obtain ⟨-, -, sampled⟩ := attempt_secant made
    exact ⟨later, estimate, p.isFinite_of_sample sampled⟩
  · rintro state ⟨-, later⟩
    exact iff_of_true later.point trivial

theorem isFinite_newtonRaphson_iff [ToString ε] {title : String} {x0 : Float}
    (finite : x0.isFinite = true) :
    ((newtonRaphson p).report p title (newtonStart p x0)).IsFinite ↔
      (newtonRaphson p).Within p (newtonStart p x0) Tangent.InRange fun _ => True := by
  refine Rule.isFinite_iff_within (fun x => x.isFinite = true) ?_ ?_ ?_ ?_
  · intro x started
    rw [ending_newtonStart started]
    exact finite
  · intro _ x t made whole
    obtain ⟨sampled, steep⟩ := attempt_newtonRaphson made
    exact Tangent.isFinite_zero_iff (p.isFinite_sample sampled whole) steep
  · exact fun _ _ _ _ _ estimate => estimate
  · exact fun x whole => iff_of_true whole trivial

/-- The estimates of fixed-point iteration are values, which are looked at. -/
theorem isFinite_fixedPoint [ToString ε] {title : String} {x0 : Float}
    (finite : x0.isFinite = true) :
    ((fixedPoint p).report p title (fixedPointStart p x0)).IsFinite := by
  have within : (fixedPoint p).Within p (fixedPointStart p x0) (fun _ => True) fun _ => True :=
    ⟨fun _ _ => trivial, fun _ _ => trivial⟩
  refine (Rule.isFinite_iff_within (fun x => x.isFinite = true) ?_ ?_ ?_ ?_).2 within
  · intro x started
    rw [ending_fixedPointStart started]
    exact finite
  · intro _ x s made _
    simp only [fixedPoint] at made
    split at made
    next => cases made
    next sampled =>
      cases made
      exact iff_of_true (p.isFinite_of_sample sampled) trivial
  · exact fun _ _ _ _ _ estimate => estimate
  · exact fun x whole => iff_of_true whole trivial

/-! ## All methods -/

/-- The starting points are finite. -/
def Method.FiniteStart (method : Method) (start : method.Start) : Prop :=
  match method, start with
  | .bisection, (a, b) | .falsePosition, (a, b) | .secant, (a, b) =>
    a.isFinite = true ∧ b.isFinite = true
  | .newtonRaphson, x0 | .fixedPoint, x0 => x0.isFinite = true

/-- The numbers on the way from one estimate to the next are in range, and so are those on the way
to the root where it is the middle of a bracket. -/
def Method.InRange (p : Problem ε) (method : Method) (start : method.Start) : Prop :=
  match method, start with
  | .bisection, (a, b) => (Root.bisection p).Within p (bracketStart p a b)
      (fun step => step.bracket.MiddleInRange) Bracket.MiddleInRange
  | .falsePosition, (a, b) => (Root.falsePosition p).Within p (bracketStart p a b)
      (fun step => step.bracket.ChordInRange) Bracket.MiddleInRange
  | .secant, (x0, x1) => (Root.secant p).Within p (secantStart p x0 x1)
      (fun step => step.state.ChordInRange) fun _ => True
  | .newtonRaphson, x0 => (Root.newtonRaphson p).Within p (newtonStart p x0) Tangent.InRange
      fun _ => True
  | .fixedPoint, _ => True

/-- Which searches from finite points report finite numbers only: those on whose way no number is
out of range. Fixed-point iteration always does. -/
theorem Method.isFinite_report_iff [ToString ε] (method : Method) (p : Problem ε)
    {start : method.Start} (finite : method.FiniteStart start) :
    (method.report p start).IsFinite ↔ method.InRange p start := by
  cases method with
  | bisection => exact isFinite_bisection_iff finite.1 finite.2
  | falsePosition => exact isFinite_falsePosition_iff finite.1 finite.2
  | secant => exact isFinite_secant_iff finite.1 finite.2
  | newtonRaphson => exact isFinite_newtonRaphson_iff finite
  | fixedPoint => exact iff_of_true (isFinite_fixedPoint finite) trivial

theorem Method.inRange_square_root :
    let p : Problem String := {
      evaluator := fun _ _ x => .ok (x * x - 2.0)
      formula := "x^2 - 2"
      settings := { maxIterations := 3 } }
    Method.FiniteStart .falsePosition (1.0, 2.0) ∧ Method.InRange p .falsePosition (1.0, 2.0) ∧
      Method.FiniteStart .newtonRaphson 1.0 ∧ Method.InRange p .newtonRaphson 1.0 := by
  intro p
  have ends : Method.FiniteStart .falsePosition (1.0, 2.0) :=
    ⟨by decide +kernel, by decide +kernel⟩
  have start : Method.FiniteStart .newtonRaphson 1.0 := by
    change (1.0 : Float).isFinite = true
    decide +kernel
  refine ⟨ends, ?_, start, ?_⟩
  · exact (Method.isFinite_report_iff .falsePosition p ends).1 (by decide +kernel)
  · exact (Method.isFinite_report_iff .newtonRaphson p start).1 (by decide +kernel)

/-- The middle of two great floats is infinite, and so is the zero of a gentle tangent at a great
value; with another iteration, the value there would be looked at. -/
theorem Method.not_isFinite_great_numbers :
    (let p : Problem String := {
        evaluator := fun _ _ x => .ok (1e308 / x - 0.7)
        formula := "1e308/x - 0.7"
        settings := { maxIterations := 0 } }
      let r := Method.bisection.report p (1e308, 1.7e308)
      isTolerance p.settings.tolerance = true ∧ r.outcome = .exhausted ∧
        r.root? = some (1.0 / 0.0) ∧ ¬ r.IsFinite) ∧
    (let p : Problem String := {
        evaluator := fun _ _ x =>
          .ok (1e300 / (1.0 + 1e308 * (x * 1e5) * (x * 1e5)) + 1e-9 * x)
        formula := "1e300/(1 + 1e308*(x*1e5)*(x*1e5)) + 1e-9*x"
        settings := { maxIterations := 1 } }
      let r := Method.newtonRaphson.report p 0.0
      isTolerance p.settings.tolerance = true ∧ isTolerance p.settings.derivativeStep = true ∧
        r.outcome = .exhausted ∧ r.iterations = [-1.0 / 0.0] ∧ r.root? = some (-1.0 / 0.0) ∧
        ¬ r.IsFinite) := by
  decide +kernel

/-! ## Points that are not too great -/

theorem Between.abs_value_le {a b x : Float} (between : Between a b x) (first : a.isFinite = true)
    (second : b.isFinite = true) : |value x| ≤ max |value a| |value b| := by
  rw [between_iff first second (between.isFinite first second), Set.mem_uIcc] at between
  obtain ⟨above, below⟩ | ⟨above, below⟩ := between
  · exact abs_le_max_abs_abs above below
  · rw [max_comm]
    exact abs_le_max_abs_abs above below

theorem Between.inRange {a b x : Float} (between : Between a b x) (first : a.isFinite = true)
    (second : b.isFinite = true) (left : Binary64.InRange (2 * value a))
    (right : Binary64.InRange (2 * value b)) : Binary64.InRange (2 * value x) := by
  rw [Binary64.InRange, abs_mul, abs_two] at left right ⊢
  obtain le | le := le_max_iff.1 (between.abs_value_le first second)
  · linarith
  · linarith

/-- Between points whose doubles are in range, so is the sum of the ends of a bracket. -/
theorem Bracket.Inside.middleInRange {a b : Float} {k : Bracket} (inside : k.Inside a b)
    (first : a.isFinite = true) (second : b.isFinite = true)
    (left : Binary64.InRange (2 * value a)) (right : Binary64.InRange (2 * value b)) :
    k.MiddleInRange := by
  have low := inside.left.inRange first second left right
  have high := inside.right.inRange first second left right
  have sum := abs_add_le (value k.left.point) (value k.right.point)
  rw [Binary64.InRange, abs_mul, abs_two] at low high
  rw [MiddleInRange, Binary64.InRange]
  linarith

/-- Halving never leaves the interval between two points whose doubles are in range. -/
theorem inside_bisection_of_double {a b : Float} (first : a.isFinite = true)
    (second : b.isFinite = true) (left : InRange (2 * value a)) (right : InRange (2 * value b)) :
    ∀ k ∈ (bisection p).states p (bracketStart p a b), k.Inside a b := by
  have between {k : Bracket} (inside : k.Inside a b) :
      k.left.point ≤ k.midpoint ∧ k.midpoint ≤ k.right.point := by
    refine inside.ordered.midpoint_between ?_
    rw [Bracket.hasMiddle_iff inside.ordered.left_isFinite inside.ordered.right_isFinite]
    exact inside.middleInRange first second left right
  have harmless (step) (_ : step ∈ (bisection p).steps p (bracketStart p a b))
      (_ : (bisection p).settles step = false) : True := trivial
  have all : ((bisection p).states p (bracketStart p a b)).IsChain Bracket.Contains ∧
      ∀ k ∈ (bisection p).states p (bracketStart p a b), k.Inside a b := by
    refine Rule.isChain_states ?_ harmless fun _ => inside_of_bracketStart first second
    rintro _ k - step made - - inside
    obtain ⟨rfl, point, -⟩ := attempt_bracketing made
    obtain ⟨above, below⟩ := between inside
    rw [← point] at above below
    exact inside.shrink first second above below
  exact all.2

/-- Halving reports finite numbers only, whatever the formula, if the doubles of both starting
points are in range. -/
theorem isFinite_bisection_of_double [ToString ε] {title : String} {a b : Float}
    (first : a.isFinite = true) (second : b.isFinite = true)
    (left : InRange (2 * value a)) (right : InRange (2 * value b)) :
    ((bisection p).report p title (bracketStart p a b)).IsFinite := by
  have all (k) (mem : k ∈ (bisection p).states p (bracketStart p a b)) : k.MiddleInRange :=
    (inside_bisection_of_double first second left right k mem).middleInRange first second left right
  refine (isFinite_bisection_iff first second).2 ⟨fun step mem => ?_, fun k final => ?_⟩
  · exact all _ (mem_steps_bracketing mem).1
  · exact all _ (Rule.mem_states_of_final final)

end Stepwise.Root
