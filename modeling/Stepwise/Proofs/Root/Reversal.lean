import Stepwise.Proofs.Root.Gate

/-!
# The endpoints the other way round

A bracket has its samples in the order of their points, so that a search with a bracketing method
goes the same way whichever endpoint is given first. Only the lines that name the endpoints, and the
error that does, tell the difference.

- `Error.mirrored`: the error of the same search with its endpoints exchanged
- `Bracket.between_comm`, `Bracket.make_mirrored`: one bracket, or one error and its mirror image
- `Engine.Reversed`: what two searches have in common
- `reversed`: both bracketing methods, from any state of a root finder
-/

namespace Stepwise.Root

open Binary64

variable {ε : Type} {p : Problem ε} {a b : Sample}

/-- The error with the ends of a bracket exchanged, if it is about these. -/
def Error.mirrored : Error ε → Error ε
  | .noSignChange a b => .noSignChange b a
  | cause => cause

/-- Two different points that are numbers. -/
structure Distinct (x y : Float) : Prop where
  first : x.isNaN = false
  second : y.isNaN = false
  ne : (x == y) = false

instance : DecidableRel Distinct := fun x y =>
  decidable_of_iff (x.isNaN = false ∧ y.isNaN = false ∧ (x == y) = false)
    ⟨fun all => ⟨all.1, all.2.1, all.2.2⟩, fun distinct => ⟨distinct.1, distinct.2, distinct.3⟩⟩

namespace Bracket

theorem between_comm (distinct : Distinct a.point b.point) : between a b = between b a := by
  obtain ⟨first, second, ne⟩ := distinct
  rw [between, between]
  obtain lt | gt := lt_or_gt_of_not_beq first second ne
  · rw [if_pos lt, if_neg (not_lt_of_gt second first lt)]
  · rw [if_neg (not_lt_of_gt first second gt), if_pos gt]

/-- Of the same two samples the same bracket is made, or the same error with its ends exchanged. -/
theorem make_mirrored (distinct : Distinct a.point b.point) (first : a.value.isFinite = true)
    (second : b.value.isFinite = true) :
    make (ε := ε) b a = (make a b).mapError Error.mirrored := by
  rw [make_eq first second, make_eq second first, between_comm distinct]
  by_cases signs : SignsShow a.value b.value
  · rw [if_pos signs, if_pos signs.symm]
    rfl
  · rw [if_neg signs, if_neg (mt SignsShow.symm signs)]
    rfl

end Bracket

/-! ## Reports -/

/-- The report with further lines before its steps. -/
def Report.after (lines : List String) (r : Report ε) : Report ε :=
  { r with transcript := { r.transcript with steps := lines ++ r.transcript.steps } }

/-- What the reports of two searches have in common that differ in the order of their endpoints. -/
structure Report.Reversed (r s : Report ε) : Prop where
  result : s.result = r.result.mapError Error.mirrored
  iterations : s.iterations = r.iterations
  answers : s.transcript.answers = r.transcript.answers

/-- The steps of two searches that start from the same bracket: only the lines that name the
endpoints differ. -/
def SameSteps (p : Problem ε) (a b : Sample) (steps steps' : List String) : Prop :=
  ∃ rest, steps = p.opening ++ p.initialBlock a b ++ rest ∧
    steps' = p.opening ++ p.initialBlock b a ++ rest

theorem mapError_mirrored_eq {r : Except (Error ε) Finding}
    (other : ∀ s t, r ≠ .error (.noSignChange s t)) : r.mapError Error.mirrored = r := by
  cases r with
  | ok finding => rfl
  | error cause =>
    cases cause with
    | noSignChange s t => exact absurd rfl (other s t)
    | _ => rfl

theorem Report.reversed_after {r : Report ε} {lines lines' : List String}
    (other : ∀ s t, r.result ≠ .error (.noSignChange s t)) :
    (r.after lines).Reversed (r.after lines') :=
  ⟨(mapError_mirrored_eq other).symm, rfl, rfl⟩

section

variable [ToString ε] {title : String}

/-- Closing a search adds lines, whatever the lines before. -/
theorem Report.conclude_append {number : Float → String} {tolerance : Float}
    {lines steps : List String} {iterations : List Float} {result : Except (Error ε) Finding} :
    conclude title number tolerance (lines ++ steps) iterations result =
      (conclude title number tolerance steps iterations result).after lines := by
  cases result with
  | error cause => simp [conclude, after]
  | ok finding => rfl

theorem Report.reversed_conclude (number : Float → String) (tolerance : Float)
    {steps steps' : List String} {iterations : List Float} (cause : Error ε) :
    (conclude title number tolerance steps iterations (.error cause)).Reversed
      (conclude title number tolerance steps' iterations (.error cause.mirrored)) :=
  ⟨rfl, rfl, rfl⟩

/-- From one state on, every search goes the same way, whatever was written before. -/
theorem Rule.exists_report {σ β : Type} (rule : Rule σ β ε) (p : Problem ε) (title : String)
    (state : σ) :
    ∃ rest : Report ε, ∀ lines,
      rule.report p title ⟨lines, .ok state⟩ = rest.after (p.opening ++ lines) := by
  let run := rule.run p.settings.maxIterations state
  refine ⟨.conclude title p.number p.settings.tolerance
    (rule.stepLines run.steps ++ rule.closingLines run) (run.steps.map rule.estimate)
    (rule.finding run), fun lines => ?_⟩
  rw [← Report.conclude_append, ← List.append_assoc]
  rfl

variable {guess : Bracket → Float} {settles : BracketStep → Bool} {how : Bracket → String}
  {remarks : BracketStep → List String}

/-- Both reports of a bracketing method on two samples. -/
theorem reversed_report {rule : Rule Bracket BracketStep ε}
    (kind : rule = bracketing p guess settles how remarks) (distinct : Distinct a.point b.point)
    (first : p.sample a.point = .ok a) (second : p.sample b.point = .ok b) :
    let r := rule.report p title (bracketStart p a.point b.point)
    let s := rule.report p title (bracketStart p b.point a.point)
    r.Reversed s ∧ (a.value * b.value < 0.0 →
      s.result = r.result ∧ SameSteps p a b r.transcript.steps s.transcript.steps) := by
  have finite := p.isFinite_of_sample first
  have finite' := p.isFinite_of_sample second
  rw [bracketStart_of_samples first second, bracketStart_of_samples second first,
    Bracket.make_mirrored distinct finite finite', Bracket.make_eq finite finite']
  by_cases signs : SignsShow a.value b.value
  · -- Behind the gate the error is never about signs, so that mirroring it does nothing.
    rw [if_pos signs]
    dsimp only [Except.mapError]
    obtain ⟨rest, report⟩ := rule.exists_report p title (.between a b)
    have other (s t : Sample) :
        (rule.report p title ⟨p.initialBlock a b, .ok (.between a b)⟩).result ≠
          .error (.noSignChange s t) := by
      subst kind
      exact not_noSignChange_of_ok rfl
    rw [report] at other
    rw [report, report]
    exact ⟨Report.reversed_after other, fun _ => ⟨rfl, rest.transcript.steps, rfl, rfl⟩⟩
  · rw [if_neg signs]
    exact ⟨Report.reversed_conclude p.number p.settings.tolerance (.noSignChange a b),
      fun below => absurd ((signsShow_iff_lt finite finite').2 below) signs⟩

end

/-! ## Searches -/

namespace Engine

variable {method : Method} {formula : String} {tolerance? : Option Float}

/-- What two searches have in common that differ in the order of their endpoints. -/
structure Reversed (r s : Outcome × Engine method ε) : Prop where
  outcome : s.1 = r.1
  iterations : s.2.iterations = r.2.iterations
  root : s.2.root? = r.2.root?
  answers : s.2.transcript.answers = r.2.transcript.answers
  error : s.2.error? = r.2.error?.map Error.mirrored

theorem reversed_showing {e : Engine method ε} {r s : Report ε} (reversed : r.Reversed s) :
    Reversed (r.outcome, e.showing r) (s.outcome, e.showing s) where
  outcome := by
    rw [Report.outcome, Report.outcome, reversed.result]
    cases r.result <;> rfl
  iterations := reversed.iterations
  root := by
    change s.root? = r.root?
    rw [Report.root?, Report.root?, reversed.result]
    cases r.result <;> rfl
  answers := reversed.answers
  error := by
    change s.error? = r.error?.map Error.mirrored
    rw [Report.error?, Report.error?, reversed.result]
    cases r.result <;> rfl

/-- Two searches that start from the same bracket. -/
structure StartAlike (p : Problem ε) (a b : Sample) (r s : Outcome × Engine method ε) : Prop where
  error : s.2.error? = r.2.error?
  steps : SameSteps p a b r.2.transcript.steps s.2.transcript.steps

theorem startAlike_showing {e : Engine method ε} {r s : Report ε} (result : s.result = r.result)
    (steps : SameSteps p a b r.transcript.steps s.transcript.steps) :
    StartAlike p a b (r.outcome, e.showing r) (s.outcome, e.showing s) where
  error := by
    change s.error? = r.error?
    rw [Report.error?, Report.error?, result]
  steps := steps

theorem Reversed.refl_of_refused {r : Outcome × Engine method ε} {cause : SettingError}
    (refused : r.2.error? = some (.invalidSetting cause)) : Reversed r r :=
  ⟨rfl, rfl, rfl, rfl, by rw [refused]; rfl⟩

section

variable [ToString ε]

/-- What holds of two reports of a method holds of the searches that leave them. A tolerance that is
refused is refused before the starting points are looked at. -/
theorem reversed_of_reports {e : Engine method ε} {start start' : method.Start}
    (reports : let p := (e.opened formula tolerance?).problem
      let r := method.report p start
      let s := method.report p start'
      r.Reversed s ∧ (a.value * b.value < 0.0 →
        s.result = r.result ∧ SameSteps p a b r.transcript.steps s.transcript.steps)) :
    let r := e.solve formula start tolerance?
    let s := e.solve formula start' tolerance?
    Reversed r s ∧ (tolerance?.all isTolerance = true → a.value * b.value < 0.0 →
      StartAlike (e.opened formula tolerance?).problem a b r s) := by
  dsimp only at reports ⊢
  cases accepted : tolerance?.all isTolerance with
  | true =>
    rw [solve_of_all_accepted accepted, solve_of_all_accepted accepted]
    refine ⟨reversed_showing reports.1, fun _ signs => ?_⟩
    obtain ⟨result, steps⟩ := reports.2 signs
    exact startAlike_showing result steps
  | false =>
    cases tolerance? with
    | none => cases accepted
    | some tolerance =>
      rw [solve_of_refused accepted, solve_of_refused accepted]
      exact ⟨.refl_of_refused rfl, nofun⟩

variable (distinct : Distinct a.point b.point)
include distinct

theorem reversed_bisection {e : Engine .bisection ε} (first : e.Takes formula a)
    (second : e.Takes formula b) :
    let r := e.solve formula (a.point, b.point) tolerance?
    let s := e.solve formula (b.point, a.point) tolerance?
    Reversed r s ∧ (tolerance?.all isTolerance = true → a.value * b.value < 0.0 →
      StartAlike (e.opened formula tolerance?).problem a b r s) :=
  reversed_of_reports (reversed_report rfl distinct first.sample second.sample)

theorem reversed_falsePosition {e : Engine .falsePosition ε} (first : e.Takes formula a)
    (second : e.Takes formula b) :
    let r := e.solve formula (a.point, b.point) tolerance?
    let s := e.solve formula (b.point, a.point) tolerance?
    Reversed r s ∧ (tolerance?.all isTolerance = true → a.value * b.value < 0.0 →
      StartAlike (e.opened formula tolerance?).problem a b r s) :=
  reversed_of_reports (reversed_report rfl distinct first.sample second.sample)

end

end Engine

/-- A search with a bracketing method goes the same way whichever endpoint is given first: same
outcome, estimates, root and answers, and the same error up to the order in which it names the
endpoints. If the check of the signs is passed, even the error is the same, and of the steps only
the lines that name the endpoints differ. -/
theorem reversed [ToString ε] (formula : String) (tolerance? : Option Float) (a b : Sample)
    (distinct : Distinct a.point b.point) :
    (∀ e : Engine .bisection ε, e.Takes formula a → e.Takes formula b →
      let r := e.solve formula (a.point, b.point) tolerance?
      let s := e.solve formula (b.point, a.point) tolerance?
      Engine.Reversed r s ∧ (tolerance?.all isTolerance = true → a.value * b.value < 0.0 →
        Engine.StartAlike (e.opened formula tolerance?).problem a b r s)) ∧
    ∀ e : Engine .falsePosition ε, e.Takes formula a → e.Takes formula b →
      let r := e.solve formula (a.point, b.point) tolerance?
      let s := e.solve formula (b.point, a.point) tolerance?
      Engine.Reversed r s ∧ (tolerance?.all isTolerance = true → a.value * b.value < 0.0 →
        Engine.StartAlike (e.opened formula tolerance?).problem a b r s) :=
  ⟨fun _ first second => Engine.reversed_bisection distinct first second,
    fun _ first second => Engine.reversed_falsePosition distinct first second⟩

/-- On the way to the square root of two, both searches start from the same bracket. Between 2 and 3
both fail, each with the endpoints as they were given. -/
theorem reversed_square_root :
    let f : Float → Except String Float := fun x => .ok (x * x - 2.0)
    let e : Engine .bisection String := .make { maxIterations := 2 } fun _ _ => f
    let a : Sample := ⟨1.0, -1.0⟩
    let b : Sample := ⟨2.0, 2.0⟩
    let c : Sample := ⟨3.0, 7.0⟩
    Distinct a.point b.point ∧ Distinct b.point c.point ∧
      (e.Takes "x^2 - 2" a ∧ e.Takes "x^2 - 2" b ∧ e.Takes "x^2 - 2" c) ∧
      Engine.StartAlike (e.opened "x^2 - 2" none).problem a b
        (e.solve "x^2 - 2" (a.point, b.point) none) (e.solve "x^2 - 2" (b.point, a.point) none) ∧
      (e.solve "x^2 - 2" (b.point, c.point) none).2.error? = some (.noSignChange b c) ∧
      (e.solve "x^2 - 2" (c.point, b.point) none).2.error? = some (.noSignChange c b) := by
  intro f e a b c
  have near : Distinct a.point b.point := by decide +kernel
  have far : Distinct b.point c.point := by decide +kernel
  have one : e.Takes "x^2 - 2" a := ⟨congrArg Except.ok (by decide +kernel), by decide +kernel⟩
  have two : e.Takes "x^2 - 2" b := ⟨congrArg Except.ok (by decide +kernel), by decide +kernel⟩
  have three : e.Takes "x^2 - 2" c := ⟨congrArg Except.ok (by decide +kernel), by decide +kernel⟩
  have alike := ((reversed "x^2 - 2" none a b near).1 e one two).2 rfl (by decide +kernel)
  have fails := ((reversed "x^2 - 2" none b c far).1 e two three).1.error
  have accepted : (none : Option Float).all isTolerance = true := rfl
  have refused := ((Engine.gated_bisection accepted two three).refused.2 (by decide +kernel)).error
  exact ⟨near, far, ⟨one, two, three⟩, alike, refused, fails.trans (by rw [refused]; rfl)⟩

end Stepwise.Root
