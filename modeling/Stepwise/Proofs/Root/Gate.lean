import Stepwise.Proofs.Root.Endpoints
import Stepwise.Proofs.Root.Opening
import Stepwise.Proofs.Root.SignChange

/-!
# The check of the signs

A bracketing method starts only between values whose product is below zero. Of two values with
opposite signs the product is below zero unless it is rounded to zero.

- `SignsShow`: two values of opposite signs, whose product shows it
- `bracketStart_of_samples`: what is written and made of two finite values
- `Engine.Gated`: what becomes of a search between two samples
- `gated`: both bracketing methods, from any state of a root finder
-/

namespace Stepwise.Root

open Binary64

variable {ε : Type} {p : Problem ε}

/-- Two values are of opposite signs, and their product is farther from zero than half of the least
positive float, so that it is not rounded to zero. -/
structure SignsShow (x y : Float) : Prop where
  opposite : Opposite x y
  shows : 2 ^ (-1075 : ℤ) < |value x * value y|

instance : DecidableRel SignsShow := fun x y =>
  decidable_of_iff (Opposite x y ∧ 2 ^ (-1075 : ℤ) < |value x * value y|)
    ⟨fun both => ⟨both.1, both.2⟩, fun signs => ⟨signs.opposite, signs.shows⟩⟩

section

variable {x y : Float}

theorem SignsShow.symm (signs : SignsShow x y) : SignsShow y x :=
  ⟨signs.opposite.symm, mul_comm (value x) (value y) ▸ signs.shows⟩

theorem signsShow_iff_lt (first : x.isFinite = true) (second : y.isFinite = true) :
    SignsShow x y ↔ x * y < 0.0 := by
  rw [mul_lt_zero_iff first second]
  constructor
  · rintro ⟨opposite, shows⟩
    rw [abs_of_neg ((opposite_iff first second).1 opposite)] at shows
    linarith
  · intro below
    have negative : value x * value y < 0 := below.trans (neg_neg_of_pos (by positivity))
    refine ⟨(opposite_iff first second).2 negative, ?_⟩
    rw [abs_of_neg negative]
    linarith

theorem zero_le_mul_iff (first : x.isFinite = true) (second : y.isFinite = true) :
    x * y >= 0.0 ↔ ¬ SignsShow x y := by
  have number := (computes_mul first second).isNaN
  rw [signsShow_iff_lt first second, ← not_le_iff_lt (isNaN_of_isFinite isFinite_zero) number,
    not_not]

end

/-! ## Starts -/

theorem Bracket.make_eq {a b : Sample} (first : a.value.isFinite = true)
    (second : b.value.isFinite = true) :
    make (ε := ε) a b =
      if SignsShow a.value b.value then .ok (between a b) else .error (.noSignChange a b) := by
  have gate := zero_le_mul_iff first second
  rw [make_of_isFinite first second]
  by_cases signs : SignsShow a.value b.value
  · rw [if_neg (fun le => gate.1 le signs), if_pos signs]
  · rw [if_pos (gate.2 signs), if_neg signs]

/-- The lines with the values at both ends. -/
def Problem.initialBlock (p : Problem ε) (a b : Sample) : List String :=
  ["Initial values:", p.sampleText "a" a, p.sampleText "b" b, ""]

theorem bracketStart_of_samples {a b : Sample} (first : p.sample a.point = .ok a)
    (second : p.sample b.point = .ok b) :
    bracketStart p a.point b.point = ⟨p.initialBlock a b, Bracket.make a b⟩ := by
  rw [bracketStart, Problem.openingSamples, first, second]
  rfl

/-! ## What comes after the start -/

theorem Rule.exists_attempt_of_error {σ β : Type} [ToString ε] {rule : Rule σ β ε} {title : String}
    {start : Trail String (Error ε) σ} {state : σ} {cause : Error ε}
    (started : start.ending = .ok state)
    (failed : (rule.report p title start).result = .error cause) :
    ∃ number s interruption, rule.attempt number s = .error interruption ∧
      interruption.cause = cause := by
  rw [report, started] at failed
  dsimp only at failed
  have goes := rule.goes_run p.settings.maxIterations state
  generalize rule.run p.settings.maxIterations state = run at failed goes
  cases goes with
  | settled | exhausted => simp [finding, Report.conclude] at failed
  | interrupted _ attempted _ =>
    refine ⟨_, _, _, attempted, ?_⟩
    simpa [finding, Report.conclude] using failed

theorem Report.error?_eq_some_iff {r : Report ε} {cause : Error ε} :
    r.error? = some cause ↔ r.result = .error cause := by
  rw [error?]
  cases r.result <;> simp

theorem Problem.sample_ne_noSignChange {x : Float} {s t : Sample} :
    p.sample x ≠ .error (.noSignChange s t) := by
  intro failed
  rw [sample] at failed
  split at failed
  next => cases failed
  next => split at failed <;> cases failed

/-- Behind the gate no error is about signs. -/
theorem not_noSignChange_of_ok [ToString ε] {guess : Bracket → Float}
    {settles : BracketStep → Bool} {how : Bracket → String} {remarks : BracketStep → List String}
    {title : String} {start : Trail String (Error ε) Bracket} {k : Bracket} {s t : Sample}
    (started : start.ending = .ok k) :
    ((bracketing p guess settles how remarks).report p title start).result ≠
      .error (.noSignChange s t) := by
  intro failed
  obtain ⟨number, k, interruption, attempted, cause⟩ := Rule.exists_attempt_of_error started failed
  simp only [bracketing] at attempted
  split at attempted
  next sampled =>
    cases attempted
    exact p.sample_ne_noSignChange (sampled.trans (congrArg _ cause))
  next => cases attempted

/-! ## Searches -/

namespace Engine

variable {method : Method} {formula : String} {tolerance? : Option Float} {a b : Sample}

/-- The evaluator has this value for a formula, and it is finite. -/
structure Takes (e : Engine method ε) (formula : String) (s : Sample) : Prop where
  value : e.evaluator formula e.settings.variableName s.point = .ok s.value
  isFinite : s.value.isFinite = true

theorem Takes.sample {e : Engine method ε} {s : Sample} (takes : e.Takes formula s) :
    (e.opened formula tolerance?).problem.sample s.point = .ok s := by
  simp [Problem.sample, takes.value, takes.isFinite]

/-- What becomes of a search between two samples: unless their signs show, it fails at once. If they
do, it starts from the bracket of both, and no later error is about signs. -/
structure Gated (r : Outcome × Engine method ε) (start : Trail String (Error ε) Bracket)
    (a b : Sample) : Prop where
  refused : FailsAtOnce r (.noSignChange a b) ↔ ¬ SignsShow a.value b.value
  passed : start.ending = .ok (.between a b) ↔ SignsShow a.value b.value
  otherErrors : SignsShow a.value b.value → ∀ s t, r.2.error? ≠ some (.noSignChange s t)

theorem gated_of_bracketing [ToString ε] {e : Engine method ε} {p : Problem ε}
    {guess : Bracket → Float} {settles : BracketStep → Bool} {how : Bracket → String}
    {remarks : BracketStep → List String} {title : String}
    (first : p.sample a.point = .ok a) (second : p.sample b.point = .ok b) :
    let r := (bracketing p guess settles how remarks).report p title
      (bracketStart p a.point b.point)
    Gated (r.outcome, e.showing r) (bracketStart p a.point b.point) a b := by
  intro r
  have made := congrArg Trail.ending (bracketStart_of_samples first second)
  rw [Bracket.make_eq (p.isFinite_of_sample first) (p.isFinite_of_sample second)] at made
  by_cases signs : SignsShow a.value b.value
  · rw [if_pos signs] at made
    have otherErrors (s t : Sample) : r.error? ≠ some (.noSignChange s t) :=
      mt Report.error?_eq_some_iff.1 (not_noSignChange_of_ok made)
    exact ⟨iff_of_false (fun fails => otherErrors a b fails.error) (not_not_intro signs),
      iff_of_true made signs, fun _ => otherErrors⟩
  · rw [if_neg signs] at made
    refine ⟨iff_of_true (failsAtOnce_showing (Rule.failsAtOnce_of_start made)) signs,
      iff_of_false (fun passed => ?_) signs, fun shows => absurd shows signs⟩
    rw [made] at passed
    cases passed

section

variable [ToString ε] (accepted : tolerance?.all isTolerance = true)
include accepted

theorem gated_bisection {e : Engine .bisection ε} (first : e.Takes formula a)
    (second : e.Takes formula b) :
    Gated (e.solve formula (a.point, b.point) tolerance?)
      (bracketStart (e.opened formula tolerance?).problem a.point b.point) a b := by
  rw [solve_of_all_accepted accepted]
  exact gated_of_bracketing first.sample second.sample

theorem gated_falsePosition {e : Engine .falsePosition ε} (first : e.Takes formula a)
    (second : e.Takes formula b) :
    Gated (e.solve formula (a.point, b.point) tolerance?)
      (bracketStart (e.opened formula tolerance?).problem a.point b.point) a b := by
  rw [solve_of_all_accepted accepted]
  exact gated_of_bracketing first.sample second.sample

end

end Engine

/-- Which searches with the bracketing methods pass the check of the signs: those between values of
opposite signs whose product is not rounded to zero. All others fail at once. -/
theorem gated [ToString ε] (formula : String) (tolerance? : Option Float)
    (accepted : tolerance?.all isTolerance = true) (a b : Sample) :
    (∀ e : Engine .bisection ε, e.Takes formula a → e.Takes formula b →
      Engine.Gated (e.solve formula (a.point, b.point) tolerance?)
        (bracketStart (e.opened formula tolerance?).problem a.point b.point) a b) ∧
    ∀ e : Engine .falsePosition ε, e.Takes formula a → e.Takes formula b →
      Engine.Gated (e.solve formula (a.point, b.point) tolerance?)
        (bracketStart (e.opened formula tolerance?).problem a.point b.point) a b :=
  ⟨fun _ first second => Engine.gated_bisection accepted first second,
    fun _ first second => Engine.gated_falsePosition accepted first second⟩

/-- Between 2 and 3 the check fails for the square root of two, between 1 and 2 it does not. -/
theorem gated_square_root :
    let f : Float → Except String Float := fun x => .ok (x * x - 2.0)
    let e : Engine .bisection String := .make {} fun _ _ => f
    let p := (e.opened "x^2 - 2" none).problem
    (none : Option Float).all isTolerance = true ∧ e.Takes "x^2 - 2" ⟨1.0, -1.0⟩ ∧
      e.Takes "x^2 - 2" ⟨2.0, 2.0⟩ ∧ e.Takes "x^2 - 2" ⟨3.0, 7.0⟩ ∧
      Engine.FailsAtOnce (e.solve "x^2 - 2" ((2.0, 3.0) : Float × Float) none)
        (.noSignChange ⟨2.0, 2.0⟩ ⟨3.0, 7.0⟩) ∧
      (bracketStart p 2.0 1.0).ending = .ok ⟨⟨1.0, -1.0⟩, ⟨2.0, 2.0⟩⟩ := by
  intro f e p
  have accepted : (none : Option Float).all isTolerance = true := rfl
  have one : e.Takes "x^2 - 2" ⟨1.0, -1.0⟩ :=
    ⟨congrArg Except.ok (by decide +kernel), by decide +kernel⟩
  have two : e.Takes "x^2 - 2" ⟨2.0, 2.0⟩ :=
    ⟨congrArg Except.ok (by decide +kernel), by decide +kernel⟩
  have three : e.Takes "x^2 - 2" ⟨3.0, 7.0⟩ :=
    ⟨congrArg Except.ok (by decide +kernel), by decide +kernel⟩
  have fails := ((gated "x^2 - 2" none accepted _ _).1 e two three).refused.2 (by decide +kernel)
  have passes := ((gated "x^2 - 2" none accepted _ _).1 e two one).passed.2 (by decide +kernel)
  refine ⟨accepted, one, two, three, fails, passes.trans ?_⟩
  rw [Bracket.between, if_neg (by decide +kernel)]

/-- Between values of opposite signs whose product is rounded to zero, a search fails at once. -/
theorem not_gated_small_values :
    let f : Float → Except String Float := fun x => .ok (1e-200 * x)
    let e : Engine .bisection String := .make {} fun _ _ => f
    e.Takes "1e-200*x" ⟨-1.0, -1e-200⟩ ∧ e.Takes "1e-200*x" ⟨1.0, 1e-200⟩ ∧
      Opposite (-1e-200) 1e-200 ∧
      Engine.FailsAtOnce (e.solve "1e-200*x" ((-1.0, 1.0) : Float × Float) none)
        (.noSignChange ⟨-1.0, -1e-200⟩ ⟨1.0, 1e-200⟩) := by
  intro f e
  have left : e.Takes "1e-200*x" ⟨-1.0, -1e-200⟩ :=
    ⟨congrArg Except.ok (by decide +kernel), by decide +kernel⟩
  have right : e.Takes "1e-200*x" ⟨1.0, 1e-200⟩ :=
    ⟨congrArg Except.ok (by decide +kernel), by decide +kernel⟩
  have accepted : (none : Option Float).all isTolerance = true := rfl
  refine ⟨left, right, by decide +kernel, ?_⟩
  exact (Engine.gated_bisection accepted left right).refused.2 (by decide +kernel)

end Stepwise.Root
