import Stepwise.Proofs.Root.Engine
import Stepwise.Proofs.Root.Ledger
import Stepwise.Proofs.Root.Range
import Stepwise.Proofs.Transcript

/-!
# The blocks of a search

A search writes a block for each iteration, under a heading with its number. What is read off the
blocks is what the search records.

- `Rule.LaidOut`: a rule writes its blocks in some layout
- `Method.layout`, `Method.starting`: the layouts of the methods
- `Rule.LaidOut.ledger_report`: every search of a rule keeps a ledger
- `blocks_match_iterations`: so does every call of a root finder
-/

namespace Stepwise.Root

/-! ## Rules -/

variable {σ β ε : Type} {l : Layout} {number : Float → String}

/-- Whether a search was given up at a level tangent. -/
def Error.isZeroDerivative : Error ε → Bool
  | .zeroDerivative _ _ => true
  | _ => false

/-- The blocks of a rule are laid out like this: what is shown at the start of a block is a view of
the state, and the view of the next state has the new estimate as well. The only steps that are
given up are those at a level tangent. -/
structure Rule.LaidOut (rule : Rule σ β ε) (l : Layout) (number : Float → String)
    (view : ℕ → σ → List (String × String)) : Prop where
  opens : ∀ count state step, rule.attempt count state = .ok step →
    l.Opens count (view count state) (rule.lines count step)
  told : ∀ count step,
    l.estimate? (rule.lines count step) = some (l.label count, number (rule.estimate step))
  follows : ∀ count state step, rule.attempt count state = .ok step →
    view (count + 1) (rule.next state step) =
      (view count state ++ [(l.label count, number (rule.estimate step))]).rtake l.memory
  abandons : ∀ count state i, rule.attempt count state = .error i →
    i.cause.isZeroDerivative = i.abandoned.isSome ∧ ∀ step, i.abandoned = some step →
      l.Opens count (view count state) (rule.abandonedLines count step)
  remarks : ∀ step, Plain (rule.remarks step)

namespace Rule.LaidOut

variable {rule : Rule σ β ε} {view : ℕ → σ → List (String × String)}

/-- Steps that do not settle the matter are entered one after another. -/
theorem ledger_of_path (laidOut : rule.LaidOut l number view) {count : ℕ} {state final : σ}
    {steps : List β} (path : rule.Path count state steps final) {lines : List String}
    {xs : List Float} {extra : Bool} (later : Ledger l number (count + steps.length)
      (view (count + steps.length) final) lines xs extra) :
    Ledger l number count (view count state)
      ((steps.mapIdx fun i step => rule.lines (i + count) step).flatten ++ lines)
      (steps.map rule.estimate ++ xs) extra := by
  induction path with
  | nil => exact later
  | @cons count state final step steps made unsettled path ih =>
    have number (i : ℕ) : i + 1 + count = i + (count + 1) := by omega
    rw [List.length_cons, Nat.add_comm steps.length, ← Nat.add_assoc] at later
    simp only [List.mapIdx_cons, List.flatten_cons, List.append_assoc, List.map_cons,
      List.cons_append, Nat.zero_add, number]
    refine .entry (laidOut.opens count state step made) (laidOut.told count step) ?_
    rw [← laidOut.follows count state step made]
    exact ih later

variable [ToString ε] {p : Problem ε} {title : String} {start : Trail String (Error ε) σ}
  {starting : List (String × String)}

/-- Every search of a rule keeps a ledger. -/
theorem ledger_report (laidOut : rule.LaidOut l number view)
    (fails : ∀ rest, isHeading (title ++ " cannot continue: " ++ rest) = false)
    (plain : Plain start.entries)
    (refused : ∀ e, start.ending = .error e → e.isZeroDerivative = false)
    (starts : ∀ state, start.ending = .ok state → view 1 state = starting) :
    let r := rule.report p title start
    Ledger l number 1 starting r.transcript.steps r.iterations
      (r.error?.any Error.isZeroDerivative) := by
  have opening : Plain (p.opening ++ start.entries) := by
    refine plain_append.2 ⟨?_, plain⟩
    rw [Problem.opening, plain_cons, plain_cons]
    exact ⟨isHeading_append rfl _, isHeading_append rfl _, plain_nil⟩
  rw [report]
  cases started : start.ending with
  | error e =>
    have failed := plain_append.2 ⟨opening, plain_cons.2 ⟨fails e.message, plain_nil⟩⟩
    have extra : (Report.conclude title p.number p.settings.tolerance
        (p.opening ++ start.entries) [] (.error e)).error?.any Error.isZeroDerivative = false :=
      refused e started
    dsimp only
    rw [extra]
    exact .of_plain failed
  | ok state =>
    dsimp only
    rw [← starts state started]
    have goes := rule.goes_run p.settings.maxIterations state
    generalize rule.run p.settings.maxIterations state = run at goes
    cases goes with
    | @settled steps final last path made settles _ =>
      have closing : Plain (rule.remarks last ++ ["Convergence achieved!"]) :=
        plain_append.2 ⟨laidOut.remarks last, plain_cons.2 ⟨isHeading_literal rfl, plain_nil⟩⟩
      have entered := laidOut.ledger_of_path path
        (.entry (laidOut.opens _ _ _ made) (laidOut.told _ _) (.of_plain closing))
      have number : 1 + steps.length = steps.length + 1 := Nat.add_comm ..
      simpa [finding, Report.conclude, Report.error?, stepLines, closingLines, number] using
        Ledger.plain_append opening entered
    | @exhausted steps final path all =>
      have closing : Plain ["Maximum iterations reached without convergence."] :=
        plain_cons.2 ⟨isHeading_literal rfl, plain_nil⟩
      have entered := laidOut.ledger_of_path path (.of_plain closing)
      simpa [finding, Report.conclude, Report.error?, stepLines, closingLines] using
        Ledger.plain_append opening entered
    | @interrupted steps final i path failed _ =>
      obtain ⟨cause, abandoned⟩ := i
      obtain ⟨extra, opens⟩ := laidOut.abandons _ _ _ failed
      have closing : Plain [title ++ " cannot continue: " ++ cause.message] :=
        plain_cons.2 ⟨fails _, plain_nil⟩
      have later : Ledger l number (1 + steps.length) (view (1 + steps.length) final)
          (rule.closingLines ⟨steps, .interrupted ⟨cause, abandoned⟩⟩ ++
            [title ++ " cannot continue: " ++ cause.message]) [] cause.isZeroDerivative := by
        rw [extra]
        cases abandoned with
        | none => exact .of_plain closing
        | some step =>
          rw [Nat.add_comm] at opens ⊢
          exact .abandoned (opens step rfl) closing
      simpa [finding, Report.conclude, Report.error?, stepLines] using
        Ledger.plain_append opening (laidOut.ledger_of_path path later)

end Rule.LaidOut

/-! ## The layouts of the methods -/

namespace Method

/-- Where the blocks of a method show what. -/
def layout : Method → Layout
  | .bisection | .falsePosition => { memory := 0, resultLine := 3, label := fun _ => "c" }
  | .secant => { memory := 2, resultLine := 3, label := fun count => "x" ++ toString (count + 1) }
  | .newtonRaphson => { memory := 1, resultLine := 4, label := fun count => "x" ++ toString count }
  | .fixedPoint => { memory := 1, resultLine := 2, label := fun count => "x" ++ toString count }

/-- The starting points, as far as the first block shows them. -/
def starting (method : Method) (number : Float → String) (start : method.Start) :
    List (String × String) :=
  match method, start with
  | .bisection, _ | .falsePosition, _ => []
  | .secant, (x0, x1) => [("x0", number x0), ("x1", number x1)]
  | .newtonRaphson, x0 | .fixedPoint, x0 => [("x0", number x0)]

end Method

variable {p : Problem ε}

theorem Problem.space_notMem_number (x : Float) : ' ' ∉ (p.number x).toList :=
  Decimal.notMem_fixedText rfl rfl (by decide) _ _

theorem Problem.comma_notMem_number (x : Float) : ',' ∉ (p.number x).toList :=
  Decimal.notMem_fixedText rfl rfl (by decide) _ _

theorem space_notMem_indexed (n : ℕ) : ' ' ∉ ("x" ++ toString n).toList := by
  intro mem
  rw [String.toList_append] at mem
  obtain first | digit := List.mem_append.1 mem
  · revert first
    decide
  · cases Fraction.isDigit_of_mem_toString_nat digit

/-- The line of a point and its number. -/
theorem Problem.point?_number (p : Problem ε) (n : ℕ) (x : Float) :
    point? ("  " ++ ("x" ++ toString n) ++ " = " ++ p.number x) =
      some ("x" ++ toString n, p.number x) :=
  point?_line (space_notMem_indexed n) (p.space_notMem_number x) (p.comma_notMem_number x)

theorem Problem.point?_sampleText (p : Problem ε) (n : ℕ) (s : Sample) :
    point? ("  " ++ p.sampleText ("x" ++ toString n) s) =
      some ("x" ++ toString n, p.number s.point) := by
  have line : "  " ++ p.sampleText ("x" ++ toString n) s =
      "  " ++ ("x" ++ toString n) ++ " = " ++ (p.number s.point ++ ("," ++ (String.singleton ' ' ++
        ("f(" ++ ("x" ++ toString n) ++ ") = " ++ p.plugged s.point ++ " = " ++
          p.number s.value)))) := by
    apply String.toList_injective
    simp [sampleText]
  rw [line, point?_sample (space_notMem_indexed n) (p.space_notMem_number _)
    (p.comma_notMem_number _)]

theorem Problem.result?_number (p : Problem ε) {line label : String} (how : String) {x : Float}
    (free : ' ' ∉ label.toList)
    (same : line = "  " ++ label ++ " = " ++ (how ++ (String.singleton ' ' ++ p.number x))) :
    result? line = some (label, p.number x) := by
  rw [same, result?_line free (p.space_notMem_number x)]

/-! ### Samples -/

theorem Problem.isZeroDerivative_of_sample {x : Float} {e : Error ε}
    (failed : p.sample x = .error e) : e.isZeroDerivative = false := by
  rw [sample] at failed
  split at failed
  · cases failed
    rfl
  · split at failed <;> cases failed
    rfl

theorem point_of_tangent {x : Float} {t : Tangent} (made : tangent p x = .ok t) :
    t.base.point = x := by
  obtain ⟨base, sampled, made⟩ := bind_eq_ok_iff.1 made
  obtain ⟨above, -, made⟩ := bind_eq_ok_iff.1 made
  obtain ⟨below, -, made⟩ := bind_eq_ok_iff.1 made
  cases made
  exact p.point_of_sample sampled

theorem isZeroDerivative_of_tangent {x : Float} {e : Error ε} (failed : tangent p x = .error e) :
    e.isZeroDerivative = false := by
  obtain failed | ⟨base, -, failed⟩ := bind_eq_error_iff.1 failed
  · exact p.isZeroDerivative_of_sample failed
  obtain failed | ⟨above, -, failed⟩ := bind_eq_error_iff.1 failed
  · exact p.isZeroDerivative_of_sample failed
  obtain failed | ⟨below, -, failed⟩ := bind_eq_error_iff.1 failed
  · exact p.isZeroDerivative_of_sample failed
  · cases failed

/-! ### Rules -/

theorem plain_tangentLines (count : ℕ) (t : Tangent) : Plain (tangentLines p count t).tail := by
  simp only [tangentLines, List.tail_cons, String.append_assoc, plain_cons]
  exact ⟨isHeading_append rfl _, isHeading_append rfl _, isHeading_append rfl _, plain_nil⟩

theorem opens_tangentLines {count : ℕ} {x : Float} {t : Tangent} (made : tangent p x = .ok t)
    {more : List String} (plain : Plain more) :
    Method.newtonRaphson.layout.Opens count [("x" ++ toString (count - 1), p.number x)]
      (tangentLines p count t ++ more) where
  shape := ⟨_, rfl, plain_append.2 ⟨plain_tangentLines count t, plain⟩, Nat.le_add_left ..⟩
  opening := by
    rw [← point_of_tangent made]
    change List.filterMap point? ["  " ++ ("x" ++ toString (count - 1)) ++ " = " ++
      p.number t.base.point] = _
    rw [List.filterMap_cons_some (p.point?_number _ _), List.filterMap_nil]

theorem laidOut_newtonRaphson :
    (newtonRaphson p).LaidOut Method.newtonRaphson.layout p.number
      fun count x => [("x" ++ toString (count - 1), p.number x)] where
  opens count state step made := by
    simp only [newtonRaphson] at made
    split at made
    · cases made
    · next t drawn =>
      split at made <;> cases made
      refine opens_tangentLines drawn (plain_cons.2 ⟨?_, plain_cons.2 ⟨?_, plain_nil⟩⟩)
      · simp only [String.append_assoc]
        exact isHeading_append rfl _
      · exact isHeading_blank
  told count t := by
    refine Layout.estimate?_of_line rfl (p.result?_number ("x - f(x)/f'(x) = " ++
      p.number t.base.point ++ " - " ++ p.number t.base.value ++ "/" ++ p.number t.derivative ++
        " =") (space_notMem_indexed count) ?_)
    apply String.toList_injective
    simp [Method.layout, newtonRaphson]
  follows count state step made := rfl
  abandons count state i failed := by
    simp only [newtonRaphson] at failed
    split at failed
    · next cause refused =>
      cases failed
      exact ⟨isZeroDerivative_of_tangent refused, by rintro step ⟨⟩⟩
    · next t made =>
      split at failed <;> cases failed
      refine ⟨rfl, fun step same => ?_⟩
      cases same
      have opens := @opens_tangentLines _ p count _ _ made _ plain_nil
      rwa [List.append_nil] at opens
  remarks _ := plain_nil

theorem laidOut_fixedPoint :
    (fixedPoint p).LaidOut Method.fixedPoint.layout p.number
      fun count x => [("x" ++ toString (count - 1), p.number x)] where
  opens count x s made := by
    simp only [fixedPoint] at made
    split at made
    · cases made
    · next sampled =>
      cases made
      refine ⟨⟨_, rfl, ?_, Nat.le_add_left ..⟩, ?_⟩
      · simp only [String.append_assoc, plain_cons]
        exact ⟨isHeading_append rfl _, isHeading_append rfl _, isHeading_append rfl _,
          isHeading_blank, plain_nil⟩
      · rw [← p.point_of_sample sampled]
        change List.filterMap point? ["  " ++ ("x" ++ toString (count - 1)) ++ " = " ++
          p.number s.point] = _
        rw [List.filterMap_cons_some (p.point?_number _ _), List.filterMap_nil]
  told count s := by
    refine Layout.estimate?_of_line rfl (p.result?_number ("g(" ++ ("x" ++ toString (count - 1)) ++
      ") = " ++ p.plugged s.point ++ " =") (space_notMem_indexed count) ?_)
    apply String.toList_injective
    simp [Method.layout, fixedPoint]
  follows count state step made := rfl
  abandons count state i failed := by
    simp only [fixedPoint] at failed
    split at failed <;> cases failed
    next refused => exact ⟨p.isZeroDerivative_of_sample refused, by rintro step ⟨⟩⟩
  remarks _ := plain_nil

theorem laidOut_secant :
    (secant p).LaidOut Method.secant.layout p.number fun count state =>
      [("x" ++ toString (count - 1), p.number state.earlier.point),
        ("x" ++ toString count, p.number state.later.point)] where
  opens count state step made := by
    obtain ⟨-, rfl, -⟩ := attempt_secant made
    refine ⟨⟨(secantLines p count step).tail, rfl, ?_, ?_⟩, ?_⟩
    · simp only [secantLines, List.tail_cons, String.append_assoc, plain_cons]
      exact ⟨isHeading_append rfl _, isHeading_append rfl _, isHeading_append rfl _,
        isHeading_append rfl _, isHeading_blank, plain_nil⟩
    · simp [Method.layout, secantLines]
    · change List.filterMap point?
        ["  " ++ p.sampleText ("x" ++ toString (count - 1)) step.state.earlier,
          "  " ++ p.sampleText ("x" ++ toString count) step.state.later] = _
      rw [List.filterMap_cons_some (p.point?_sampleText _ _),
        List.filterMap_cons_some (p.point?_sampleText _ _), List.filterMap_nil]
  told count step := by
    let x0 := p.number step.state.earlier.point
    let x1 := p.number step.state.later.point
    let f0 := p.number step.state.earlier.value
    let f1 := p.number step.state.later.value
    refine Layout.estimate?_of_line rfl (p.result?_number (x1 ++ " - (" ++ f1 ++ " * (" ++ x1 ++
      " - " ++ x0 ++ ")) / (" ++ f1 ++ " - " ++ f0 ++ ") =") (space_notMem_indexed (count + 1)) ?_)
    apply String.toList_injective
    simp [Method.layout, secant, x0, x1, f0, f1]
  follows count state step made := by
    obtain ⟨-, rfl, -⟩ := attempt_secant made
    rfl
  abandons count state i failed := by
    simp only [secant] at failed
    split at failed
    · cases failed
      exact ⟨rfl, by rintro step ⟨⟩⟩
    · split at failed <;> cases failed
      next refused => exact ⟨p.isZeroDerivative_of_sample refused, by rintro step ⟨⟩⟩
  remarks _ := plain_nil

theorem laidOut_bracketing {guess : Bracket → Float} {settles : BracketStep → Bool}
    {how : Bracket → String} {remarks : BracketStep → List String}
    (plain : ∀ step, Plain (remarks step)) :
    (bracketing p guess settles how remarks).LaidOut Method.bisection.layout p.number
      fun _ _ => [] where
  opens count state step made := by
    refine ⟨⟨_, rfl, ?_, Nat.zero_le _⟩, rfl⟩
    simp only [String.append_assoc, plain_cons]
    exact ⟨isHeading_append rfl _, isHeading_append rfl _, isHeading_append rfl _,
      isHeading_append rfl _, isHeading_blank, plain_nil⟩
  told count step := by
    refine Layout.estimate?_of_line rfl (p.result?_number (how step.bracket ++ " =")
      (by decide : ' ' ∉ "c".toList) ?_)
    apply String.toList_injective
    simp [Method.layout, bracketing]
  follows _ _ _ _ := rfl
  abandons count state i failed := by
    simp only [bracketing] at failed
    split at failed <;> cases failed
    next refused => exact ⟨p.isZeroDerivative_of_sample refused, by rintro step ⟨⟩⟩
  remarks := plain

/-! ### Starts -/

theorem plain_bind {α γ : Type} {t : Trail String (Error ε) α} {f : α → Trail String (Error ε) γ}
    (first : Plain t.entries) (rest : ∀ a, Plain (f a).entries) : Plain (t >>= f).entries :=
  Trail.forall_mem_entries_bind_iff.2 ⟨first, fun a _ => rest a⟩

theorem plain_openingSamples {nameA nameB : String} {a b : Float}
    (first : ∀ rest, isHeading (nameA ++ rest) = false)
    (second : ∀ rest, isHeading (nameB ++ rest) = false) :
    Plain (p.openingSamples nameA nameB a b).entries := by
  refine plain_bind plain_nil fun a => plain_bind plain_nil fun b => ?_
  refine plain_bind ?_ fun _ => plain_nil
  simp only [Trail.write, Problem.sampleText, String.append_assoc, plain_cons]
  exact ⟨isHeading_literal rfl, first _, second _, isHeading_blank, plain_nil⟩

theorem plain_bracketStart {a b : Float} : Plain (bracketStart p a b).entries :=
  plain_bind (plain_openingSamples (isHeading_append rfl) (isHeading_append rfl)) fun _ => plain_nil

theorem plain_secantStart {a b : Float} : Plain (secantStart p a b).entries :=
  plain_bind (plain_openingSamples (isHeading_append rfl) (isHeading_append rfl)) fun _ => plain_nil

theorem plain_newtonStart {x0 : Float} : Plain (newtonStart p x0).entries := by
  refine plain_bind ?_ fun _ => plain_nil
  exact plain_cons.2 ⟨isHeading_append rfl _, plain_cons.2 ⟨isHeading_append rfl _,
    plain_cons.2 ⟨isHeading_blank, plain_nil⟩⟩⟩

theorem plain_fixedPointStart {x0 : Float} : Plain (fixedPointStart p x0).entries := by
  refine plain_bind plain_nil fun above => plain_bind plain_nil fun base => ?_
  refine plain_bind (plain_cons.2 ⟨isHeading_append rfl _, plain_nil⟩) fun _ => ?_
  have last : Plain (Trail.write (ε := Error ε)
      ["Starting fixed-point iteration with initial guess: " ++ p.number x0, ""]).entries :=
    plain_cons.2 ⟨isHeading_append rfl _, plain_cons.2 ⟨isHeading_blank, plain_nil⟩⟩
  split
  · refine plain_bind (plain_cons.2 ⟨isHeading_literal rfl, plain_nil⟩) fun _ => ?_
    exact plain_bind last fun _ => plain_nil
  · exact plain_bind last fun _ => plain_nil

theorem isZeroDerivative_of_openingSamples {nameA nameB : String} {a b : Float} {e : Error ε}
    (failed : (p.openingSamples nameA nameB a b).ending = .error e) :
    e.isZeroDerivative = false := by
  obtain failed | ⟨_, -, failed⟩ := Trail.ending_bind_eq_error_iff.1 failed
  · exact p.isZeroDerivative_of_sample failed
  obtain failed | ⟨_, -, failed⟩ := Trail.ending_bind_eq_error_iff.1 failed
  · exact p.isZeroDerivative_of_sample failed
  · cases failed

theorem isZeroDerivative_of_bracketStart {a b : Float} {e : Error ε}
    (failed : (bracketStart p a b).ending = .error e) : e.isZeroDerivative = false := by
  obtain failed | ⟨samples, -, failed⟩ := Trail.ending_bind_eq_error_iff.1 failed
  · exact isZeroDerivative_of_openingSamples failed
  · rw [Trail.ending_ofExcept, Bracket.make] at failed
    split at failed
    · cases failed
      rfl
    · split at failed <;> cases failed

theorem isZeroDerivative_of_secantStart {a b : Float} {e : Error ε}
    (failed : (secantStart p a b).ending = .error e) : e.isZeroDerivative = false := by
  obtain failed | ⟨_, -, failed⟩ := Trail.ending_bind_eq_error_iff.1 failed
  · exact isZeroDerivative_of_openingSamples failed
  · cases failed

theorem isZeroDerivative_of_fixedPointStart {x0 : Float} {e : Error ε}
    (failed : (fixedPointStart p x0).ending = .error e) : e.isZeroDerivative = false := by
  obtain failed | ⟨_, -, failed⟩ := Trail.ending_bind_eq_error_iff.1 failed
  · exact p.isZeroDerivative_of_sample failed
  obtain failed | ⟨_, -, failed⟩ := Trail.ending_bind_eq_error_iff.1 failed
  · exact p.isZeroDerivative_of_sample failed
  obtain failed | ⟨_, -, failed⟩ := Trail.ending_bind_eq_error_iff.1 failed
  · cases failed
  · split at failed <;> cases failed

/-! ## Searches -/

variable [ToString ε]

theorem Method.isHeading_failure (method : Method) (rest : String) :
    isHeading (method.title ++ " cannot continue: " ++ rest) = false := by
  rw [String.append_assoc]
  cases method <;> exact isHeading_append rfl _

/-- Every search keeps a ledger. -/
theorem Method.ledger_report (method : Method) (p : Problem ε) (start : method.Start) :
    let r := method.report p start
    Ledger method.layout p.number 1 (method.starting p.number start) r.transcript.steps r.iterations
      (r.error?.any Error.isZeroDerivative) := by
  have fails := method.isHeading_failure
  cases method with
  | bisection =>
    exact (laidOut_bracketing fun _ => plain_nil).ledger_report fails plain_bracketStart
      (fun _ => isZeroDerivative_of_bracketStart) fun _ _ => rfl
  | falsePosition =>
    have remarks (s : BracketStep) : Plain (if falsePositionWithin p s then []
        else ["Estimate did not move off the bracket endpoint."]) := by
      split
      · exact plain_nil
      · exact plain_cons.2 ⟨isHeading_literal rfl, plain_nil⟩
    exact (laidOut_bracketing remarks).ledger_report fails plain_bracketStart
      (fun _ => isZeroDerivative_of_bracketStart) fun _ _ => rfl
  | secant =>
    refine laidOut_secant.ledger_report fails plain_secantStart
      (fun _ => isZeroDerivative_of_secantStart) fun state started => ?_
    obtain ⟨samples, sampled, same⟩ := Trail.ending_bind_eq_ok_iff.1 started
    cases same
    obtain ⟨first, second⟩ := ending_openingSamples sampled
    rw [p.point_of_sample first, p.point_of_sample second]
    rfl
  | newtonRaphson =>
    refine laidOut_newtonRaphson.ledger_report fails plain_newtonStart (fun _ => nofun)
      fun x started => ?_
    rw [ending_newtonStart started]
    rfl
  | fixedPoint =>
    refine laidOut_fixedPoint.ledger_report fails plain_fixedPointStart
      (fun _ => isZeroDerivative_of_fixedPointStart) fun x started => ?_
    rw [ending_fixedPointStart started]
    rfl

theorem Engine.ledger_solve {method : Method} (e : Engine method ε) (formula : String)
    (start : method.Start) (tolerance? : Option Float) :
    let left := (e.solve formula start tolerance?).2
    Ledger method.layout left.formats.shown.text 1 (method.starting left.formats.shown.text start)
      left.transcript.steps left.iterations (left.error?.any Error.isZeroDerivative) := by
  have carried (accepted : tolerance?.all isTolerance = true) :
      let left := (e.solve formula start tolerance?).2
      Ledger method.layout left.formats.shown.text 1
        (method.starting left.formats.shown.text start) left.transcript.steps left.iterations
        (left.error?.any Error.isZeroDerivative) := by
    rw [solve_of_all_accepted accepted]
    exact method.ledger_report (e.opened formula tolerance?).problem start
  cases tolerance? with
  | none => exact carried rfl
  | some tolerance =>
    cases accepted : isTolerance tolerance with
    | true => exact carried accepted
    | false =>
      rw [solve_of_refused accepted]
      exact .of_plain (plain_cons.2 ⟨method.isHeading_failure _, plain_nil⟩)

/-- Whatever a root finder is given and however a search ends, its transcript keeps step with its
record. The headings are numbered in turn, one for each estimate recorded, and one more just if the
search was given up at a level tangent. Under each heading the new estimate is the one recorded, in
the present format. The open methods start each block from the latest points before it, as they
stand there, the starting points included. -/
theorem blocks_match_iterations {method : Method} (e : Engine method ε) (formula : String)
    (start : method.Start) (tolerance? : Option Float) :
    let left := (e.solve formula start tolerance?).2
    let number := left.formats.shown.text
    let shown := blocks left.transcript.steps
    let l := method.layout
    left.transcript.steps.filter isHeading = (List.range' 1 shown.length).map heading ∧
    shown.length = left.iterations.length + (left.error?.any Error.isZeroDerivative).toNat ∧
    (∀ i block, shown[i]? = some block → block.head? = some (heading (i + 1)) ∧
      l.opening block =
        (method.starting number start ++ (shown.take i).filterMap l.estimate?).rtake l.memory) ∧
    ∀ i (inside : i < left.iterations.length), ∃ block, shown[i]? = some block ∧
      l.estimate? block = some (l.label (i + 1), number left.iterations[i]) := by
  have ledger := e.ledger_solve formula start tolerance?
  have size : (method.starting (e.solve formula start tolerance?).2.formats.shown.text
      start).length = method.layout.memory := by
    cases method <;> rfl
  refine ⟨ledger.headings, ledger.length_blocks, fun i block found => ⟨?_, ?_⟩,
    fun i inside => ?_⟩
  · rw [ledger.head?_blocks i block found, Nat.add_comm]
  · exact ledger.openings size i block found
  · obtain ⟨block, found, read⟩ := ledger.estimates i inside
    exact ⟨block, found, by rw [read, Nat.add_comm]⟩

end Stepwise.Root
