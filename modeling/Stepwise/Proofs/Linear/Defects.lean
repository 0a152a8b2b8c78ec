import Stepwise.Proofs.Linear.Coherence
import Stepwise.Proofs.Linear.Conversion
import Stepwise.Proofs.Linear.Engine

/-!
# What is wrong with a system

- `defects`: all that is wrong with rows and constants, in the order in which it is told of
- `WellFormed`, `wellFormed_iff_defects_eq_nil`: the systems with which nothing is wrong
- `System.flaw?_check`: the checks find the first defect
- `solve_refuses_first_defect`: a solution fails for it before anything else is done
-/

namespace Stepwise.Linear

/-! ## Defects -/

/-- The numbers that are not finite, counted from `count`. -/
def nonFinite (complaint : ℕ → Float → Error) (count : ℕ) (values : List Float) : List Error :=
  (values.zipIdx count).flatMap fun p => if p.1.isFinite then [] else [complaint p.2 p.1]

/-- What is wrong with a row: its length first, and then its numbers from the left. -/
def rowDefects (expected row : ℕ) (values : List Float) : List Error :=
  (if values.length = expected then [] else [.notSquare row values.length expected]) ++
    nonFinite (.nonFiniteCoefficient row) 1 values

/-- What is wrong with the rows: that there are none, or else what is wrong with each of them. -/
def squareDefects (rows : List (List Float)) : List Error :=
  if rows = [] then [.empty] else (rows.zipIdx 1).flatMap fun p => rowDefects rows.length p.2 p.1

/-- What is wrong with the constants: their number first, and then the numbers themselves. -/
def constantDefects (expected : ℕ) (constants : List Float) : List Error :=
  (if constants.length = expected then [] else [.constantsLength expected constants.length]) ++
    nonFinite .nonFiniteConstant 1 constants

/-- All that is wrong with rows and constants. Between the two comes the number of the rows, which
only Cramer's rule minds. Rows, columns and constants are counted from one. -/
def defects (method : Method) (rows : List (List Float)) (constants : List Float) : List Error :=
  squareDefects rows ++
    ((if method = .cramer ∧ rows.length < 2 then [.tooFewEquations 2 rows.length] else []) ++
      constantDefects rows.length constants)

/-- A square system of finite numbers, with enough equations for the method. -/
structure WellFormed (method : Method) (rows : List (List Float)) (constants : List Float) :
    Prop where
  nonempty : 1 ≤ rows.length
  enough : method = .cramer → 2 ≤ rows.length
  square : ∀ row ∈ rows, row.length = rows.length
  even : constants.length = rows.length
  finite_coefficients : ∀ row ∈ rows, ∀ x ∈ row, x.isFinite = true
  finite_constants : ∀ x ∈ constants, x.isFinite = true

variable {method : Method} {rows : List (List Float)} {constants : List Float}

theorem flatMap_zipIdx_eq_nil_iff {α β : Type} {f : ℕ → α → List β} {count : ℕ} {as : List α} :
    ((as.zipIdx count).flatMap fun p => f p.2 p.1) = [] ↔
      ∀ i (inside : i < as.length), f (count + i) as[i] = [] := by
  rw [List.flatMap_eq_nil_iff, List.forall_mem_iff_getElem]
  simp

theorem nonFinite_eq_nil_iff {complaint : ℕ → Float → Error} {count : ℕ} {values : List Float} :
    nonFinite complaint count values = [] ↔ ∀ x ∈ values, x.isFinite = true := by
  rw [List.forall_mem_iff_getElem]
  refine (flatMap_zipIdx_eq_nil_iff (f := fun i x =>
    if x.isFinite then [] else [complaint i x])).trans ?_
  simp

theorem rowDefects_eq_nil_iff {expected row : ℕ} {values : List Float} :
    rowDefects expected row values = [] ↔
      values.length = expected ∧ ∀ x ∈ values, x.isFinite = true := by
  simp [rowDefects, nonFinite_eq_nil_iff]

theorem squareDefects_eq_nil_iff : squareDefects rows = [] ↔
    rows ≠ [] ∧ ∀ row ∈ rows, row.length = rows.length ∧ ∀ x ∈ row, x.isFinite = true := by
  rw [squareDefects]
  split
  next empty => simp [empty]
  next some =>
    rw [List.forall_mem_iff_getElem]
    refine (flatMap_zipIdx_eq_nil_iff (f := rowDefects rows.length)).trans ?_
    simp [rowDefects_eq_nil_iff, some]

theorem constantDefects_eq_nil_iff {expected : ℕ} : constantDefects expected constants = [] ↔
    constants.length = expected ∧ ∀ x ∈ constants, x.isFinite = true := by
  simp [constantDefects, nonFinite_eq_nil_iff]

theorem wellFormed_iff_defects_eq_nil :
    WellFormed method rows constants ↔ defects method rows constants = [] := by
  rw [defects, List.append_eq_nil_iff, List.append_eq_nil_iff, squareDefects_eq_nil_iff,
    constantDefects_eq_nil_iff, ite_eq_right_iff]
  constructor
  · rintro ⟨nonempty, enough, square, even, finite, finite'⟩
    refine ⟨⟨List.ne_nil_of_length_pos nonempty, fun row mem => ⟨square row mem, finite row mem⟩⟩,
      fun few => ?_, even, finite'⟩
    exact absurd (enough few.1) (not_le.2 few.2)
  · rintro ⟨⟨some, each⟩, enough, even, finite'⟩
    exact {
      nonempty := List.length_pos_iff.2 some
      enough := fun cramer => not_lt.1 fun few => nomatch enough ⟨cramer, few⟩
      square := fun row mem => (each row mem).1
      even
      finite_coefficients := fun row mem => (each row mem).2
      finite_constants := finite' }

/-! ## The checks find the first defect -/

section

variable {α β ε : Type}

/-- The error of a computation that fails. -/
def flaw? : Except ε α → Option ε
  | .ok _ => none
  | .error e => some e

theorem flaw?_eq_none_iff {r : Except ε α} : flaw? r = none ↔ ∃ a, r = .ok a := by
  cases r <;> simp [flaw?]

@[simp] theorem flaw?_map (f : α → β) (r : Except ε α) : flaw? (r.map f) = flaw? r := by
  cases r <;> rfl

/-- If the check of an entry finds the first of its defects, so does that of a list. -/
theorem flaw?_checkAll {check : ℕ → α → Except ε β} {found : ℕ → α → List ε}
    (each : ∀ i a, flaw? (check i a) = (found i a).head?) (count : ℕ) (entries : List α) :
    flaw? (checkAll check count entries) =
      ((entries.zipIdx count).flatMap fun p => found p.2 p.1).head? := by
  induction entries generalizing count with
  | nil => rfl
  | cons a rest ih =>
    rw [checkAll, List.zipIdx_cons, List.flatMap_cons, List.head?_append, ← each, ← ih]
    cases check count a with
    | error e => rfl
    | ok b => cases checkAll check (count + 1) rest <;> rfl

/-- Floats are checked for their number, and then for being finite. -/
theorem flaw?_checkSized {expected count : ℕ} {refuse : ℕ → Float → Error} {wrong : Error}
    {entries : List Float} :
    flaw? (if length : entries.length = expected then
        (checkAll (fun i x => if x.isFinite then .ok x else .error (refuse i x)) count entries).map
          (Vector.cast length)
      else .error wrong : Except Error (Vector Float expected)) =
      ((if entries.length = expected then [] else [wrong]) ++
        nonFinite refuse count entries).head? := by
  have each (i : ℕ) (x : Float) :
      flaw? (if x.isFinite then .ok x else .error (refuse i x) : Except Error Float) =
        (if x.isFinite then [] else [refuse i x]).head? := by
    split <;> rfl
  split
  next => rw [flaw?_map, flaw?_checkAll each, List.nil_append, nonFinite]
  next => rfl

end

theorem flaw?_checkRow (expected row : ℕ) (values : List Float) :
    flaw? (checkRow expected row values) = (rowDefects expected row values).head? :=
  flaw?_checkSized

theorem flaw?_checkSquare (rows : List (List Float)) :
    flaw? (checkSquare rows) = (squareDefects rows).head? := by
  rw [checkSquare, squareDefects]
  split
  next empty =>
    rw [if_pos (List.isEmpty_iff.1 empty)]
    rfl
  next some =>
    rw [if_neg (mt List.isEmpty_iff.2 some)]
    exact flaw?_checkAll (flaw?_checkRow rows.length) 1 rows

theorem flaw?_checkConstants (expected : ℕ) (values : List Float) :
    flaw? (checkConstants expected values) = (constantDefects expected values).head? :=
  flaw?_checkSized

/-- The checks find the first defect, and none if there is none. -/
theorem System.flaw?_check : flaw? (System.check method.required rows constants) =
    (defects method rows constants).head? := by
  rw [check, defects, List.head?_append, List.head?_append, ← flaw?_checkSquare,
    ← flaw?_checkConstants]
  cases square : checkSquare rows with
  | error e => rfl
  | ok t =>
    have nonempty : rows ≠ [] := by
      rintro rfl
      cases square
    have few : rows.length < method.required ↔ method = .cramer ∧ rows.length < 2 := by
      cases method <;> simp [Method.required, nonempty]
    by_cases short : rows.length < method.required
    · obtain ⟨rfl, -⟩ := few.1 short
      rw [if_pos (few.1 short)]
      simp only [bind, Except.bind, if_pos short]
      rfl
    · rw [if_neg (mt few.2 short)]
      simp only [bind, Except.bind, if_neg short]
      cases checkConstants rows.length constants <;> rfl

theorem System.exists_check_iff :
    (∃ s, check method.required rows constants = .ok s) ↔ WellFormed method rows constants := by
  rw [← flaw?_eq_none_iff, flaw?_check, wellFormed_iff_defects_eq_nil, List.head?_eq_none_iff]

/-! ## Errors after the checks -/

variable {settings : Settings}

theorem System.not_flaw_of_exact {n : ℕ} {s : System Float n} {cause : Error}
    (failed : s.exact = .error cause) : ¬ Flaw cause := by
  obtain ⟨_, -, -, rfl⟩ := exact_eq_error failed
  rintro ⟨⟩

/-- A direct method fails for a number that it cannot convert or for want of a solution. -/
theorem Method.IsDirect.not_flaw (direct : method.IsDirect) (sound : settings.Sound)
    {s : System Float rows.length} (checked : System.check method.required rows constants = .ok s)
    {cause : Error} (failed : (method.report settings rows constants).error? = some cause) :
    ¬ System.Flaw cause := by
  cases converted : s.exact with
  | error reason =>
    rw [Report.error?, result_of_conversion_error direct checked converted] at failed
    cases failed
    exact System.not_flaw_of_exact converted
  | ok e =>
    have decides := decides_of_exact direct sound checked converted
    dsimp only at decides
    rw [failed] at decides
    obtain ⟨-, noError⟩ | ⟨-, same, refuses⟩ := decides
    · cases noError
    · cases same
      cases refuses <;> rintro ⟨⟩

/-- An iteration fails for a zero on the diagonal or a pass that is not finite. -/
theorem Sweep.not_flaw {kind : Sweep} {n : ℕ} {s : System Float n} {title : String} {setup : Setup}
    {cause : Error} (failed : (sweep title setup s kind).error? = some cause) :
    ¬ System.Flaw cause := by
  rw [sweep] at failed
  cases started : (sweepStart setup s kind).ending with
  | error reason =>
    rw [started] at failed
    rw [ending_sweepStart] at started
    split at started
    · cases started
      cases failed
      rintro ⟨⟩
    · cases started
  | ok arranged =>
    rw [started, Report.error?] at failed
    dsimp only at failed
    rw [Report.result_conclude] at failed
    split at failed
    next => cases failed
    next stopped =>
      cases failed
      obtain ⟨_, rfl⟩ := exists_diverged_of_runResult stopped
      rintro ⟨⟩

/-- A system that has passed the checks is never blamed for a flaw. -/
theorem Method.not_flaw_of_checked (sound : settings.Sound) {s : System Float rows.length}
    (checked : System.check method.required rows constants = .ok s) {cause : Error}
    (failed : (method.report settings rows constants).error? = some cause) :
    ¬ System.Flaw cause := by
  cases method with
  | cramer => exact IsDirect.cramer.not_flaw sound checked failed
  | gaussian => exact IsDirect.gaussian.not_flaw sound checked failed
  | jacobi =>
    rw [report, checked] at failed
    exact Sweep.not_flaw failed
  | gaussSeidel =>
    rw [report, checked] at failed
    exact Sweep.not_flaw failed

/-! ## Solutions -/

theorem Engine.Sound.solve_refuses {e : Engine method} (sound : e.Sound)
    {tolerance? : Option Float} (accepted : tolerance?.all isTolerance = true) :
    let r := e.solve rows constants tolerance?
    (WellFormed method rows constants →
      ∀ cause, r.2.error? = some cause → ¬ System.Flaw cause) ∧
    (¬ WellFormed method rows constants → ∃ cause,
      (defects method rows constants).head? = some cause ∧ System.Flaw cause ∧
      r.1 = .failed ∧ r.2.error? = some cause ∧
      r.2.transcript = { steps := [method.title ++ " cannot continue: " ++ cause.message] } ∧
      r.2.solution = [] ∧ r.2.iterations = []) := by
  have fresh : (e.opened tolerance?).Sound := sound.opened accepted
  rw [solve_of_all_accepted accepted]
  dsimp only
  rw [fresh.setup_eq, ← System.exists_check_iff]
  constructor
  · rintro ⟨s, checked⟩ cause failed
    exact Method.not_flaw_of_checked fresh.settings checked failed
  · intro refused
    cases checked : System.check method.required rows constants with
    | ok s => exact absurd ⟨s, checked⟩ refused
    | error cause =>
      have first : (defects method rows constants).head? = some cause := by
        rw [← System.flaw?_check, checked, flaw?]
      have report : method.report (e.opened tolerance?).settings rows constants =
          .conclude method.title [] [] (.error cause) [] := by
        rw [Method.report, checked]
      rw [report]
      exact ⟨cause, first, System.flaw_of_check checked, rfl, rfl, rfl, rfl, rfl⟩

/-- Whatever a solver has been through, a system passes the checks if it is well formed, and then it
is not blamed for a flaw. Any other system is refused for its first defect, and the line that tells
of the defect is all that is left behind. -/
theorem solve_refuses_first_defect (method : Method) (rows : List (List Float))
    (constants : List Float) (choices : List Settings.Call) (calls : List Engine.Call)
    {tolerance? : Option Float} (accepted : tolerance?.all isTolerance = true) :
    let e : Engine method := .after (.make (({} : Settings).after choices)) calls
    let r := e.solve rows constants tolerance?
    ((∃ s, System.check method.required rows constants = .ok s) ↔
      WellFormed method rows constants) ∧
    (WellFormed method rows constants →
      ∀ cause, r.2.error? = some cause → ¬ System.Flaw cause) ∧
    (¬ WellFormed method rows constants → ∃ cause,
      (defects method rows constants).head? = some cause ∧ System.Flaw cause ∧
      r.1 = .failed ∧ r.2.error? = some cause ∧
      r.2.transcript = { steps := [method.title ++ " cannot continue: " ++ cause.message] } ∧
      r.2.solution = [] ∧ r.2.iterations = []) :=
  ⟨System.exists_check_iff,
    (Engine.sound_after (Settings.sound_default.after choices) calls).solve_refuses accepted⟩

/-- Two ragged rows with numbers that are not finite, and no constants. -/
theorem solve_refuses_ragged_rows :
    let rows : List (List Float) := [[2.0, 1.0 / 0.0], [0.0 / 0.0]]
    let e : Engine .cramer := .after (.make (({} : Settings).after [])) [.setTolerance 0.5]
    let r := e.solve rows [] (some 0.25)
    (some 0.25).all isTolerance = true ∧ ¬ WellFormed .cramer rows [] ∧ r.1 = .failed ∧
      r.2.error? = some (.nonFiniteCoefficient 1 2 (1.0 / 0.0)) ∧ r.2.transcript.answers = [] ∧
      r.2.transcript.steps.length = 1 := by
  intro rows e r
  have accepted : (some 0.25).all isTolerance = true := by decide +kernel
  obtain ⟨-, -, refused⟩ :=
    solve_refuses_first_defect .cramer rows [] [] [.setTolerance 0.5] accepted
  have two : (2.0 : Float).isFinite = true := by decide +kernel
  have infinite : (1.0 / 0.0 : Float).isFinite = false := by decide +kernel
  have first : (defects .cramer rows []).head? =
      some (.nonFiniteCoefficient 1 2 (1.0 / 0.0)) := by
    simp [defects, squareDefects, rowDefects, nonFinite, rows, two, infinite]
  have ragged : ¬ WellFormed .cramer rows [] := by
    rw [wellFormed_iff_defects_eq_nil, ← List.head?_eq_none_iff, first]
    nofun
  obtain ⟨cause, same, -, failed, error, transcript, -, -⟩ := refused ragged
  rw [first] at same
  cases same
  exact ⟨accepted, ragged, failed, error, by rw [transcript], by rw [transcript]; rfl⟩

end Stepwise.Linear
