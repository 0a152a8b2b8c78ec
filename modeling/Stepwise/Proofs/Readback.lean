import Stepwise.Proofs.Linear.LineBreaks
import Stepwise.Proofs.Root.LineBreaks

/-!
# Reading back what solvers and root finders write

- `lineByLine_solve`: which transcripts have one line for each step and each answer, and what can be
  read off their texts
- `not_lineByLine_of_broken_formula`: a formula on two lines breaks the lines of a search
-/

namespace Stepwise

/-- Solvers of linear systems write line by line. So does a root finder, unless it writes a formula
with a line break, or its evaluator says something that has one; the evaluator of formulas says
nothing of the kind about a formula without line breaks. The text of a transcript has a line for
each step and each answer exactly if the transcript is line by line, and then it tells the
transcript. -/
theorem lineByLine_solve (formula : String) (tolerance? : Option Float) :
    (∀ (method : Linear.Method) (e : Linear.Engine method) rows constants,
      let left := (e.solve rows constants tolerance?).2.transcript
      left.LineByLine ∧ Transcript.read left.render = some left) ∧
    (∀ (method : Root.Method) (ε : Type) [ToString ε] (e : Root.Engine method ε) start,
      let left := (e.solve formula start tolerance?).2
      (left.transcript.LineByLine ↔
        (e.Writes formula start tolerance? → OneLine formula) ∧
        ∀ x cause, left.error? = some (.evaluation x cause) → OneLine (toString cause)) ∧
      (left.transcript.LineByLine →
        Transcript.read left.transcript.render = some left.transcript)) ∧
    (∀ (method : Root.Method) (e : Root.Engine method Formula.Error) start,
      e.evaluator = Formula.evaluator → OneLine formula →
        (e.solve formula start tolerance?).2.transcript.LineByLine) ∧
    ∀ t : Transcript, fields '\n' t.render = t.shown ++ [""] ↔ t.LineByLine := by
  refine ⟨fun method e rows constants => ?_, fun method ε _ e start => ?_,
    fun method e start standard free => ?_, fun t => Transcript.fields_render_iff⟩
  · have readable := e.readable_solve rows constants tolerance?
    exact ⟨readable.lineByLine, readable.read_render⟩
  · refine ⟨e.lineByLine_solve_iff formula start tolerance?, fun lineByLine => ?_⟩
    exact Transcript.Readable.read_render
      ⟨lineByLine, e.heading_notMem_solve formula start tolerance?⟩
  · refine (e.lineByLine_solve_iff formula start tolerance?).2 ⟨fun _ => free, ?_⟩
    intro x cause failed
    have told := e.evaluator_of_evaluation_solve formula start tolerance? failed
    exact Formula.oneLine_message free (standard ▸ told)

/-- Newton's method tells of a formula that it cannot read line by line, and its text tells that. -/
theorem lineByLine_solve_unread :
    let e : Root.Engine .newtonRaphson Formula.Error := .make {} Formula.evaluator
    let left := (e.solve "x+" (1.0 : Float) none).2.transcript
    OneLine "x+" ∧ left.LineByLine ∧ Transcript.read left.render = some left := by
  intro e left
  have free : OneLine "x+" := oneLine_literal rfl
  obtain ⟨-, searched, standard, -⟩ := lineByLine_solve "x+" none
  have lineByLine := standard .newtonRaphson e (1.0 : Float) rfl free
  exact ⟨free, lineByLine, (searched .newtonRaphson _ e (1.0 : Float)).2 lineByLine⟩

/-- Bisection of a formula on two lines writes both of them. -/
theorem not_lineByLine_of_broken_formula :
    let e : Root.Engine .bisection Formula.Error :=
      .make { maxIterations := 1 } Formula.evaluator
    let left := (e.solve "x\n+ x" ((-1.0, 2.0) : Float × Float) none).2.transcript
    ¬ left.LineByLine ∧ fields '\n' left.render ≠ left.shown ++ [""] := by
  intro e left
  have parsed : Formula.parse "x\n+ x" "x" =
      .ok ⟨"x\n+ x", "x", .binary .add .variable .variable⟩ := by cbv
  have sampled (x : Float) (finite : (x + x).isFinite = true) :
      (e.opened "x\n+ x" none).problem.sample x = .ok ⟨x, x + x⟩ := by
    have value : e.evaluator "x\n+ x" e.settings.variableName x = .ok (x + x) := by
      change Formula.evaluator "x\n+ x" "x" x = _
      rw [Formula.evaluator, parsed]
      rfl
    simp [Root.Problem.sample, value, finite]
  have writes : e.Writes "x\n+ x" ((-1.0, 2.0) : Float × Float) none :=
    ⟨rfl, ⟨_, sampled (-1.0) (by decide +kernel)⟩, _, sampled 2.0 (by decide +kernel)⟩
  have broken : ¬ left.LineByLine := fun lineByLine => by
    have free := ((e.lineByLine_solve_iff _ _ none).1 lineByLine).1 writes
    exact absurd free (by decide)
  exact ⟨broken, mt Transcript.fields_render_iff.1 broken⟩

end Stepwise
