import Stepwise.Proofs.Formula.LineBreaks
import Stepwise.Proofs.Root.Coherence
import Stepwise.Proofs.Root.Engine
import Stepwise.Proofs.Transcript

/-!
# Line breaks of a root search

The lines of a search have the line breaks of the formula, once one is written with a number in
place of its variable, and those of what the evaluator says. All else is without.

- `Rule.Plugs`: the formula is written in every step
- `Rule.lineByLine_report_iff`: when the transcript of a search has no line breaks
- `Method.Writes`: whether a search gets as far as to write the formula
- `Method.lineByLine_report_iff`: so for all methods
- `Engine.Writes`, `Engine.lineByLine_solve_iff`: so for every call of a root finder
-/

namespace Stepwise.Root

variable {ε σ β : Type} {p : Problem ε}

/-! ## Single lines -/

@[simp] theorem Problem.oneLine_number (x : Float) : OneLine (p.number x) :=
  p.formats.shown.oneLine_text x

@[simp] theorem Problem.oneLine_plugged {x : Float} : OneLine (p.plugged x) ↔ OneLine p.formula :=
  Formula.oneLine_substitute (p.formats.substituted.oneLine_text x)

theorem Problem.oneLine_sampleText {name : String} (free : OneLine name) {s : Sample} :
    OneLine (p.sampleText name s) ↔ OneLine p.formula := by
  have equals : OneLine " = " := oneLine_literal rfl
  have call : OneLine ", f(" ∧ OneLine ") = " := ⟨oneLine_literal rfl, oneLine_literal rfl⟩
  simp [sampleText, free, equals, call]

theorem Problem.clean_opening : Clean p.opening := by
  simp only [opening, clean_cons, clean_nil, oneLine_append, oneLine_number, and_true]
  exact ⟨oneLine_literal rfl, oneLine_literal rfl, oneLine_nat _⟩

theorem SettingError.oneLine_message (cause : SettingError) : OneLine cause.message := by
  cases cause with
  | tolerance | derivativeStep =>
    exact oneLine_append.2 ⟨oneLine_literal rfl, Decimal.oneLine_plainText _⟩
  | variableName name => exact oneLine_append.2 ⟨oneLine_literal rfl, oneLine_quoted _⟩

/-- Of the errors, only those of the evaluator can have line breaks. -/
theorem Error.oneLine_message_iff [ToString ε] {e : Error ε} :
    OneLine e.message ↔ ∀ x cause, e = .evaluation x cause → OneLine (toString cause) := by
  cases e with
  | evaluation x cause =>
    have text : OneLine "error evaluating function at " := oneLine_literal rfl
    have colon : OneLine ": " := oneLine_literal rfl
    dsimp only [message]
    simp [text, colon]
  | invalidSetting cause =>
    refine iff_of_true (oneLine_append.2 ⟨oneLine_literal rfl, cause.oneLine_message⟩) ?_
    simp
  | noSignChange | equalValues | zeroDerivative | nonFinite =>
    refine iff_of_true ?_ (by simp)
    dsimp only [message]
    simp only [oneLine_append, Decimal.oneLine_plainText, and_true]
    and_intros <;> exact oneLine_literal rfl

/-! ## Steps -/

/-- Every step of a rule writes the formula, and so does every step that it gives up. -/
structure Rule.Plugs (rule : Rule σ β ε) (p : Problem ε) : Prop where
  lines : ∀ count step, Clean (rule.lines count step) ↔ OneLine p.formula
  abandonedLines : ∀ count state i step, rule.attempt count state = .error i →
    i.abandoned = some step → ∀ number, Clean (rule.abandonedLines number step) ↔ OneLine p.formula
  remarks : ∀ step, Clean (rule.remarks step)

theorem clean_bracketLines {how : String} (free : OneLine how) {count : Nat} {s : BracketStep} :
    Clean (bracketLines p count s how) ↔ OneLine p.formula := by
  have a : OneLine "a" := oneLine_literal rfl
  have b : OneLine "b" := oneLine_literal rfl
  have margin : OneLine "  " := oneLine_literal rfl
  have texts : OneLine "Iteration " ∧ OneLine ":" ∧ OneLine "  c = " ∧ OneLine " = " ∧
      OneLine "  f(c) = " ∧ OneLine "" := by
    and_intros <;> exact oneLine_literal rfl
  unfold bracketLines
  simp [Problem.oneLine_sampleText, a, b, margin, texts, free]

theorem plugs_bracketing {guess : Bracket → Float} {settles : BracketStep → Bool}
    {how : Bracket → String} {remarks : BracketStep → List String}
    (free : ∀ k, OneLine (how k)) (clean : ∀ step, Clean (remarks step)) :
    (bracketing p guess settles how remarks).Plugs p where
  lines count step := clean_bracketLines (free step.bracket)
  abandonedLines count state i step failed abandoned := by
    simp only [bracketing] at failed
    split at failed <;> cases failed
    cases abandoned
  remarks := clean

theorem plugs_bisection : (bisection p).Plugs p := by
  refine plugs_bracketing (fun k => ?_) fun _ => clean_nil
  simp only [oneLine_append, Problem.oneLine_number, and_true]
  and_intros <;> exact oneLine_literal rfl

theorem plugs_falsePosition : (falsePosition p).Plugs p := by
  refine plugs_bracketing (fun k => ?_) fun step => ?_
  · dsimp only
    simp only [oneLine_append, Problem.oneLine_number, and_true]
    and_intros <;> exact oneLine_literal rfl
  · split
    · exact clean_nil
    · exact clean_cons.2 ⟨oneLine_literal rfl, clean_nil⟩

theorem oneLine_indexed (n : Nat) : OneLine ("x" ++ toString n) :=
  oneLine_append.2 ⟨oneLine_literal rfl, oneLine_nat n⟩

theorem plugs_secant : (secant p).Plugs p where
  lines count step := by
    have texts : OneLine "Iteration " ∧ OneLine ":" ∧ OneLine "  " ∧ OneLine " = " ∧
        OneLine " - (" ∧ OneLine " * (" ∧ OneLine " - " ∧ OneLine ")) / (" ∧ OneLine ") = " ∧
        OneLine "  New approximation: " ∧ OneLine "" ∧ OneLine "x" := by
      and_intros <;> exact oneLine_literal rfl
    change Clean (secantLines p count step) ↔ _
    unfold secantLines
    simp only [clean_cons, clean_nil, oneLine_append, Problem.oneLine_number,
      Problem.oneLine_sampleText (oneLine_indexed _), texts, and_true, true_and]
    simp
  abandonedLines count state i step failed abandoned := by
    simp only [secant] at failed
    split at failed
    next =>
      cases failed
      cases abandoned
    next =>
      split at failed <;> cases failed
      cases abandoned
  remarks _ := clean_nil

theorem clean_tangentLines {count : Nat} {t : Tangent} :
    Clean (tangentLines p count t) ↔ OneLine p.formula := by
  have texts : OneLine "Iteration " ∧ OneLine ":" ∧ OneLine "  " ∧ OneLine " = " ∧ OneLine "x" ∧
      OneLine "  f(x) = " ∧ OneLine "  f'(" ∧ OneLine ") = [f(x+h)-f(x-h)]/(2h) = " := by
    and_intros <;> exact oneLine_literal rfl
  unfold tangentLines
  simp [texts]

theorem plugs_newtonRaphson : (newtonRaphson p).Plugs p where
  lines count t := by
    have texts : OneLine "  x" ∧ OneLine " = x - f(x)/f'(x) = " ∧ OneLine " - " ∧ OneLine "/" ∧
        OneLine " = " ∧ OneLine "" := by
      and_intros <;> exact oneLine_literal rfl
    change Clean (newtonLines p count t) ↔ _
    unfold newtonLines
    simp [clean_tangentLines, texts]
  abandonedLines _ _ _ _ _ _ _ := clean_tangentLines
  remarks _ := clean_nil

theorem plugs_fixedPoint : (fixedPoint p).Plugs p where
  lines count s := by
    have texts : OneLine "Iteration " ∧ OneLine ":" ∧ OneLine "  " ∧ OneLine " = " ∧ OneLine "x" ∧
        OneLine "  x" ∧ OneLine " = g(" ∧ OneLine ") = " ∧ OneLine "  Error = |g(x) - x| = |" ∧
        OneLine " - " ∧ OneLine "| = " ∧ OneLine "" := by
      and_intros <;> exact oneLine_literal rfl
    change Clean (fixedPointLines p count s) ↔ _
    unfold fixedPointLines
    simp [texts]
  abandonedLines _ _ _ _ failed abandoned := by
    simp only [fixedPoint] at failed
    split at failed <;> cases failed
    cases abandoned
  remarks _ := clean_nil

/-! ## Searches -/

theorem Report.lineByLine_conclude_iff [ToString ε] {title : String} (free : OneLine title)
    {steps : List String} {iterations : List Float} {result : Except (Error ε) Finding} :
    (conclude title p.number p.settings.tolerance steps iterations result).transcript.LineByLine ↔
      Clean steps ∧ ∀ x cause, (conclude title p.number p.settings.tolerance steps iterations
        result).error? = some (.evaluation x cause) → OneLine (toString cause) := by
  cases result with
  | error e =>
    have between : OneLine " cannot continue: " := oneLine_literal rfl
    simp [conclude, error?, Transcript.LineByLine, Error.oneLine_message_iff, free, between]
  | ok finding =>
    have texts : OneLine "Root found: " ∧ OneLine "Number of iterations: " ∧
        OneLine "Final tolerance: " := by
      and_intros <;> exact oneLine_literal rfl
    simp [conclude, error?, Transcript.LineByLine, texts]

namespace Rule

variable {rule : Rule σ β ε} {limit : Nat} {state : σ}

/-- The first step is made, or at least begun, so that its lines are written. -/
def Begins (rule : Rule σ β ε) (limit : Nat) (state : σ) : Prop :=
  0 < limit ∧ ∀ i, rule.attempt 1 state = .error i → i.abandoned.isSome = true

theorem Plugs.clean_stepLines (plugs : rule.Plugs p) {steps : List β} :
    Clean (rule.stepLines steps) ↔ (steps ≠ [] → OneLine p.formula) := by
  rw [stepLines, clean_flatten]
  constructor
  · intro clean nonempty
    obtain ⟨step, others, rfl⟩ := List.exists_cons_of_ne_nil nonempty
    exact (plugs.lines 1 step).1 (clean _ (by simp [List.mapIdx_cons]))
  · intro free lines mem
    obtain ⟨i, inside, rfl⟩ := List.mem_mapIdx.1 mem
    exact (plugs.lines _ _).2 (free (List.ne_nil_of_length_pos (Nat.zero_lt_of_lt inside)))

theorem Plugs.clean_closingLines (plugs : rule.Plugs p) (free : OneLine p.formula) :
    Clean (rule.closingLines (rule.run limit state)) := by
  have goes := rule.goes_run limit state
  generalize rule.run limit state = run at goes
  cases goes with
  | settled =>
    exact clean_append.2 ⟨plugs.remarks _, clean_cons.2 ⟨oneLine_literal rfl, clean_nil⟩⟩
  | exhausted => exact clean_cons.2 ⟨oneLine_literal rfl, clean_nil⟩
  | interrupted _ failed _ =>
    rw [closingLines]
    dsimp only
    split
    next step abandoned => exact (plugs.abandonedLines _ _ _ _ failed abandoned _).2 free
    next => exact clean_nil

/-- A run has the line breaks of the formula if it makes or begins a step. -/
theorem Plugs.clean_run_iff (plugs : rule.Plugs p) :
    Clean (rule.stepLines (rule.run limit state).steps) ∧
      Clean (rule.closingLines (rule.run limit state)) ↔
        (rule.Begins limit state → OneLine p.formula) := by
  constructor
  · rintro ⟨steps, closing⟩ ⟨positive, begun⟩
    obtain ⟨remaining, rfl⟩ := Nat.exists_eq_add_one.2 positive
    cases attempted : rule.attempt 1 state with
    | ok step =>
      refine plugs.clean_stepLines.1 steps ?_
      rw [Scheme.run, Scheme.runFrom, attempted]
      dsimp only
      split <;> simp [Run.prepend]
    | error i =>
      obtain ⟨step, abandoned⟩ := Option.isSome_iff_exists.1 (begun i attempted)
      refine (plugs.abandonedLines 1 state i step attempted abandoned 1).1 ?_
      simpa [Scheme.run, Scheme.runFrom, attempted, closingLines, abandoned] using closing
  · intro free
    by_cases formula : OneLine p.formula
    · exact ⟨plugs.clean_stepLines.2 fun _ => formula, plugs.clean_closingLines formula⟩
    · -- No step is begun, so that none is written.
      have idle := mt free formula
      cases limit with
      | zero => exact ⟨clean_nil, clean_cons.2 ⟨oneLine_literal rfl, clean_nil⟩⟩
      | succ remaining =>
        simp only [Begins, Nat.zero_lt_succ, true_and, not_forall, Bool.not_eq_true,
          Option.isSome_eq_false_iff, Option.isNone_iff_eq_none] at idle
        obtain ⟨i, attempted, none⟩ := idle
        simp [Scheme.run, Scheme.runFrom, attempted, closingLines, none, stepLines]

/-- When the transcript of a search has no line breaks. -/
theorem Plugs.lineByLine_report_iff [ToString ε] (plugs : rule.Plugs p) {title : String}
    (free : OneLine title) {start : Trail String (Error ε) σ} :
    (rule.report p title start).transcript.LineByLine ↔
      (Clean start.entries ∧ ∀ state, start.ending = .ok state →
        rule.Begins p.settings.maxIterations state → OneLine p.formula) ∧
      ∀ x cause, (rule.report p title start).error? = some (.evaluation x cause) →
        OneLine (toString cause) := by
  rw [report]
  cases started : start.ending with
  | error e =>
    rw [Report.lineByLine_conclude_iff free]
    simp [Problem.clean_opening]
  | ok state =>
    rw [Report.lineByLine_conclude_iff free]
    simp only [clean_append, Problem.clean_opening, true_and, Except.ok.injEq, forall_eq',
      and_assoc, ← plugs.clean_run_iff]

end Rule

/-! ## All methods -/

theorem clean_openingSamples {nameA nameB : String} {a b : Float} (freeA : OneLine nameA)
    (freeB : OneLine nameB) :
    Clean (p.openingSamples nameA nameB a b).entries ↔
      ((∃ s, p.sample a = .ok s) ∧ (∃ s, p.sample b = .ok s) → OneLine p.formula) := by
  have texts : OneLine "Initial values:" ∧ OneLine "" := by
    and_intros <;> exact oneLine_literal rfl
  simp only [Problem.openingSamples, Trail.clean_bind_iff, Trail.ending_ofExcept,
    Trail.ending_write, Trail.entries_pure, clean_nil, implies_true, and_true]
  simp [Trail.ofExcept, Trail.write, texts, Problem.oneLine_sampleText, freeA, freeB]

theorem clean_bracketStart {a b : Float} : Clean (bracketStart p a b).entries ↔
    ((∃ s, p.sample a = .ok s) ∧ (∃ s, p.sample b = .ok s) → OneLine p.formula) := by
  rw [bracketStart, Trail.clean_bind_iff,
    clean_openingSamples (oneLine_literal rfl) (oneLine_literal rfl)]
  exact and_iff_left fun _ _ => clean_nil

theorem clean_secantStart {a b : Float} : Clean (secantStart p a b).entries ↔
    ((∃ s, p.sample a = .ok s) ∧ (∃ s, p.sample b = .ok s) → OneLine p.formula) := by
  rw [secantStart, Trail.clean_bind_iff,
    clean_openingSamples (oneLine_literal rfl) (oneLine_literal rfl)]
  exact and_iff_left fun _ _ => clean_nil

theorem clean_newtonStart {x0 : Float} : Clean (newtonStart p x0).entries := by
  have texts : OneLine "Derivative step size: " ∧
      OneLine "Starting Newton-Raphson method with initial guess: " ∧ OneLine "" := by
    and_intros <;> exact oneLine_literal rfl
  rw [newtonStart, Trail.clean_bind_iff]
  simp [Trail.write, texts]

theorem clean_fixedPointStart {x0 : Float} : Clean (fixedPointStart p x0).entries := by
  have texts : OneLine "Derivative at initial guess: g'(x0) = " ∧
      OneLine "Warning: |g'(x)| ≥ 1 at initial guess. Convergence not guaranteed." ∧
      OneLine "Starting fixed-point iteration with initial guess: " ∧ OneLine "" := by
    and_intros <;> exact oneLine_literal rfl
  simp only [fixedPointStart, Trail.clean_bind_iff]
  refine ⟨clean_nil, fun above _ => ⟨clean_nil, fun base _ => ?_⟩⟩
  refine ⟨by simp [Trail.write, texts], fun _ _ => ?_⟩
  split
  all_goals simp [Trail.clean_bind_iff, Trail.write, texts]

theorem begins_newtonRaphson_iff {limit : Nat} {x : Float} :
    (newtonRaphson p).Begins limit x ↔ 0 < limit ∧ ∃ t, tangent p x = .ok t := by
  refine and_congr_right fun _ => ?_
  simp only [newtonRaphson]
  cases tangent p x with
  | error => simp
  | ok t =>
    dsimp only
    split <;> simp

theorem begins_fixedPoint_iff {limit : Nat} {x : Float} :
    (fixedPoint p).Begins limit x ↔ 0 < limit ∧ ∃ s, p.sample x = .ok s := by
  refine and_congr_right fun _ => ?_
  simp only [fixedPoint]
  cases p.sample x <;> simp

theorem ending_fixedPointStart_eq_ok_iff {x0 x : Float} :
    (fixedPointStart p x0).ending = .ok x ↔
      (∃ s, p.sample (x0 + slopeStep) = .ok s) ∧ (∃ s, p.sample x0 = .ok s) ∧ x = x0 := by
  constructor
  · intro started
    refine ⟨?_, ?_, ending_fixedPointStart started⟩
    all_goals simp only [fixedPointStart, Trail.ending_bind_eq_ok_iff] at started
    all_goals obtain ⟨above, first, base, second, -⟩ := started
    · exact ⟨above, first⟩
    · exact ⟨base, second⟩
  · rintro ⟨⟨above, first⟩, ⟨base, second⟩, rfl⟩
    simp only [fixedPointStart, Trail.ending_bind_eq_ok_iff]
    refine ⟨above, first, base, second, (), rfl, ?_⟩
    split <;> rfl

theorem Method.oneLine_title (method : Method) : OneLine method.title := by
  cases method <;> exact oneLine_literal rfl

/-- Whether a search gets as far as to write the formula with a number in it. -/
def Method.Writes (method : Method) (p : Problem ε) (start : method.Start) : Prop :=
  match method, start with
  | .bisection, (a, b) | .falsePosition, (a, b) | .secant, (a, b) =>
    (∃ s, p.sample a = .ok s) ∧ ∃ s, p.sample b = .ok s
  | .newtonRaphson, x0 => 0 < p.settings.maxIterations ∧ ∃ t, tangent p x0 = .ok t
  | .fixedPoint, x0 => 0 < p.settings.maxIterations ∧
    (∃ s, p.sample (x0 + slopeStep) = .ok s) ∧ ∃ s, p.sample x0 = .ok s

/-- The transcript of a search has line breaks if the formula has some and gets written, or if the
evaluator says something that has some. -/
theorem Method.lineByLine_report_iff [ToString ε] (method : Method) (p : Problem ε)
    (start : method.Start) :
    (method.report p start).transcript.LineByLine ↔
      (method.Writes p start → OneLine p.formula) ∧
      ∀ x cause, (method.report p start).error? = some (.evaluation x cause) →
        OneLine (toString cause) := by
  have bracketed (rule : Rule Bracket BracketStep ε) (a b : Float) :
      (Clean (bracketStart p a b).entries ∧ ∀ k, (bracketStart p a b).ending = .ok k →
        rule.Begins p.settings.maxIterations k → OneLine p.formula) ↔
      ((∃ s, p.sample a = .ok s) ∧ (∃ s, p.sample b = .ok s) → OneLine p.formula) := by
    rw [clean_bracketStart]
    refine and_iff_left_of_imp fun free k started _ => free ?_
    obtain ⟨s, t, first, second, -⟩ := ending_bracketStart started
    exact ⟨⟨s, first⟩, t, second⟩
  cases method with
  | bisection =>
    exact (plugs_bisection.lineByLine_report_iff (oneLine_title _)).trans
      (and_congr_left' (bracketed _ _ _))
  | falsePosition =>
    exact (plugs_falsePosition.lineByLine_report_iff (oneLine_title _)).trans
      (and_congr_left' (bracketed _ _ _))
  | secant =>
    refine (plugs_secant.lineByLine_report_iff (oneLine_title _)).trans (and_congr_left' ?_)
    rw [clean_secantStart]
    refine and_iff_left_of_imp fun free state started _ => free ?_
    obtain ⟨samples, sampled, -⟩ := Trail.ending_bind_eq_ok_iff.1 started
    obtain ⟨first, second⟩ := ending_openingSamples sampled
    exact ⟨⟨_, first⟩, _, second⟩
  | newtonRaphson =>
    refine (plugs_newtonRaphson.lineByLine_report_iff (oneLine_title _)).trans
      (and_congr_left' ?_)
    simp only [clean_newtonStart, true_and, begins_newtonRaphson_iff]
    refine ⟨fun free => free _ rfl, fun free x started => ?_⟩
    rw [ending_newtonStart started]
    exact free
  | fixedPoint =>
    refine (plugs_fixedPoint.lineByLine_report_iff (oneLine_title _)).trans (and_congr_left' ?_)
    simp only [clean_fixedPointStart, true_and, begins_fixedPoint_iff,
      ending_fixedPointStart_eq_ok_iff]
    constructor
    · rintro free ⟨positive, above, base⟩
      exact free _ ⟨above, base, rfl⟩ ⟨positive, base⟩
    · rintro free x ⟨above, base, rfl⟩ ⟨positive, -⟩
      exact free ⟨positive, above, base⟩

/-! ## Errors of the evaluator -/

/-- If an error is one of the evaluator, the evaluator has it for the formula. -/
def Problem.Quotes (p : Problem ε) (e : Error ε) : Prop :=
  ∀ x cause, e = .evaluation x cause →
    p.evaluator p.formula p.settings.variableName x = .error cause

theorem Problem.quotes_of_sample {x : Float} {e : Error ε} (failed : p.sample x = .error e) :
    p.Quotes e := by
  rintro x' cause rfl
  rw [sample] at failed
  split at failed
  next told =>
    cases failed
    exact told
  next => split at failed <;> cases failed

theorem quotes_of_tangent {x : Float} {e : Error ε} (failed : tangent p x = .error e) :
    p.Quotes e := by
  obtain base | ⟨_, -, failed⟩ := bind_eq_error_iff.1 failed
  · exact p.quotes_of_sample base
  obtain above | ⟨_, -, failed⟩ := bind_eq_error_iff.1 failed
  · exact p.quotes_of_sample above
  obtain below | ⟨_, -, ⟨⟩⟩ := bind_eq_error_iff.1 failed
  exact p.quotes_of_sample below

theorem Rule.quotes_report [ToString ε] {rule : Rule σ β ε} {start : Trail String (Error ε) σ}
    {title : String} (begins : ∀ e, start.ending = .error e → p.Quotes e)
    (goes : ∀ count state i, rule.attempt count state = .error i → p.Quotes i.cause) {e : Error ε}
    (failed : (rule.report p title start).error? = some e) : p.Quotes e := by
  rw [report] at failed
  cases started : start.ending with
  | error e' =>
    simp only [started, Report.conclude, Report.error?, Option.some.injEq] at failed
    exact failed ▸ begins e' started
  | ok state =>
    simp only [started] at failed
    have path := rule.goes_run p.settings.maxIterations state
    generalize rule.run p.settings.maxIterations state = run at failed path
    cases path with
    | settled | exhausted => simp [finding, Report.conclude, Report.error?] at failed
    | interrupted _ attempted _ =>
      simp only [finding, Report.conclude, Report.error?, Option.some.injEq] at failed
      exact failed ▸ goes _ _ _ attempted

theorem quotes_of_bracketing {guess : Bracket → Float} {settles : BracketStep → Bool}
    {how : Bracket → String} {remarks : BracketStep → List String} {count : Nat} {k : Bracket}
    {i : Interruption BracketStep (Error ε)}
    (failed : (bracketing p guess settles how remarks).attempt count k = .error i) :
    p.Quotes i.cause := by
  simp only [bracketing] at failed
  split at failed <;> cases failed
  exact p.quotes_of_sample ‹_›

theorem quotes_of_openingSamples {nameA nameB : String} {a b : Float} {e : Error ε}
    (failed : (p.openingSamples nameA nameB a b).ending = .error e) : p.Quotes e := by
  obtain first | ⟨_, -, failed⟩ := Trail.ending_bind_eq_error_iff.1 failed
  · exact p.quotes_of_sample first
  obtain second | ⟨_, -, ⟨⟩⟩ := Trail.ending_bind_eq_error_iff.1 failed
  exact p.quotes_of_sample second

theorem quotes_of_bracketStart {a b : Float} {e : Error ε}
    (failed : (bracketStart p a b).ending = .error e) : p.Quotes e := by
  obtain unsampled | ⟨samples, -, refused⟩ := Trail.ending_bind_eq_error_iff.1 failed
  · exact quotes_of_openingSamples unsampled
  · change Bracket.make samples.1 samples.2 = .error e at refused
    rw [Bracket.make] at refused
    split at refused
    · cases refused
      exact nofun
    · split at refused <;> cases refused

theorem quotes_of_secantStart {a b : Float} {e : Error ε}
    (failed : (secantStart p a b).ending = .error e) : p.Quotes e := by
  obtain unsampled | ⟨_, -, ⟨⟩⟩ := Trail.ending_bind_eq_error_iff.1 failed
  exact quotes_of_openingSamples unsampled

theorem quotes_of_fixedPointStart {x0 : Float} {e : Error ε}
    (failed : (fixedPointStart p x0).ending = .error e) : p.Quotes e := by
  obtain first | ⟨above, -, failed⟩ := Trail.ending_bind_eq_error_iff.1 failed
  · exact p.quotes_of_sample first
  obtain second | ⟨base, -, failed⟩ := Trail.ending_bind_eq_error_iff.1 failed
  · exact p.quotes_of_sample second
  obtain written | ⟨_, -, failed⟩ := Trail.ending_bind_eq_error_iff.1 failed
  · cases written
  · dsimp only at failed
    split at failed <;> cases failed

/-- Of the errors of a search, those of the evaluator are those that it has for the formula. -/
theorem Method.quotes_report [ToString ε] (method : Method) (p : Problem ε) (start : method.Start)
    {e : Error ε} (failed : (method.report p start).error? = some e) : p.Quotes e := by
  cases method with
  | bisection | falsePosition =>
    exact Rule.quotes_report (fun _ => quotes_of_bracketStart)
      (fun _ _ _ => quotes_of_bracketing) failed
  | secant =>
    refine Rule.quotes_report (fun _ => quotes_of_secantStart) (fun _ _ _ attempted => ?_) failed
    simp only [Root.secant] at attempted
    split at attempted
    next =>
      cases attempted
      exact nofun
    next =>
      split at attempted <;> cases attempted
      exact p.quotes_of_sample ‹_›
  | newtonRaphson =>
    refine Rule.quotes_report (fun _ => nofun) (fun _ _ _ attempted => ?_) failed
    simp only [Root.newtonRaphson] at attempted
    split at attempted
    next stuck =>
      cases attempted
      exact quotes_of_tangent stuck
    next =>
      split at attempted <;> cases attempted
      exact nofun
  | fixedPoint =>
    refine Rule.quotes_report (fun _ => quotes_of_fixedPointStart)
      (fun _ _ _ attempted => ?_) failed
    simp only [Root.fixedPoint] at attempted
    split at attempted <;> cases attempted
    exact p.quotes_of_sample ‹_›

/-! ## Calls -/

namespace Report

variable [ToString ε] {title : String} {number : Float → String} {tolerance : Float}
  {steps : List String} {iterations : List Float}

/-- The answers have a heading of their own. -/
theorem heading_notMem_conclude (result : Except (Error ε) Finding) : "Final Answers:" ∉
    (conclude title number tolerance steps iterations result).transcript.answers := by
  cases result with
  | error => exact List.not_mem_nil
  | ok finding =>
    have texts : "Root found: " ++ number finding.root ≠ "Final Answers:" ∧
        "Number of iterations: " ++ toString iterations.length ≠ "Final Answers:" ∧
        "Final tolerance: " ++ number tolerance ≠ "Final Answers:" := by
      and_intros <;> exact Transcript.literal_append_ne rfl _
    simpa [conclude, eq_comm (a := "Final Answers:")] using texts

end Report

theorem Method.heading_notMem_report [ToString ε] (method : Method) (start : method.Start) :
    "Final Answers:" ∉ (method.report p start).transcript.answers := by
  have concluded (σ β : Type) (rule : Rule σ β ε) (begun : Trail String (Error ε) σ) :
      "Final Answers:" ∉ (rule.report p method.title begun).transcript.answers := by
    rw [Rule.report]
    split <;> exact Report.heading_notMem_conclude _
  cases method <;> exact concluded _ _ _ _

namespace Engine

variable [ToString ε] {method : Method}

/-- The formula gets written, since the search is not refused, nor stopped before. -/
def Writes (e : Engine method ε) (formula : String) (start : method.Start)
    (tolerance? : Option Float) : Prop :=
  tolerance?.all isTolerance = true ∧ method.Writes (e.opened formula tolerance?).problem start

variable (e : Engine method ε) (formula : String) (start : method.Start)
  (tolerance? : Option Float)

theorem heading_notMem_solve :
    "Final Answers:" ∉ (e.solve formula start tolerance?).2.transcript.answers := by
  cases accepted : tolerance?.all isTolerance with
  | true =>
    rw [solve_of_all_accepted accepted]
    exact method.heading_notMem_report start
  | false =>
    obtain ⟨tolerance, rfl, refused⟩ := (Option.all_eq_false _ _).1 accepted
    rw [solve_of_refused refused]
    exact List.not_mem_nil

/-- A search leaves line breaks behind if it writes a formula that has some, or if the evaluator
says something that has some. -/
theorem lineByLine_solve_iff :
    (e.solve formula start tolerance?).2.transcript.LineByLine ↔
      (e.Writes formula start tolerance? → OneLine formula) ∧
      ∀ x cause, (e.solve formula start tolerance?).2.error? = some (.evaluation x cause) →
        OneLine (toString cause) := by
  cases accepted : tolerance?.all isTolerance with
  | true =>
    rw [solve_of_all_accepted accepted, Writes, and_iff_right accepted]
    have reported := method.lineByLine_report_iff (e.opened formula tolerance?).problem start
    rwa [formula_opened] at reported
  | false =>
    obtain ⟨tolerance, rfl, refused⟩ := (Option.all_eq_false _ _).1 accepted
    rw [solve_of_refused refused]
    have between : OneLine " cannot continue: " := oneLine_literal rfl
    refine iff_of_true ?_ ⟨fun writes => ?_, nofun⟩
    · refine clean_cons.2 ⟨?_, clean_nil⟩
      rw [oneLine_append, oneLine_append, Error.oneLine_message_iff]
      exact ⟨⟨method.oneLine_title, between⟩, nofun⟩
    · exact absurd (writes.1.symm.trans accepted) nofun

theorem evaluator_of_evaluation_solve {x : Float} {cause : ε}
    (failed : (e.solve formula start tolerance?).2.error? = some (.evaluation x cause)) :
    e.evaluator formula e.settings.variableName x = .error cause := by
  cases accepted : tolerance?.all isTolerance with
  | true =>
    rw [solve_of_all_accepted accepted] at failed
    simpa using method.quotes_report _ _ failed x cause rfl
  | false =>
    obtain ⟨tolerance, rfl, refused⟩ := (Option.all_eq_false _ _).1 accepted
    rw [solve_of_refused refused] at failed
    cases failed

end Engine

end Stepwise.Root
