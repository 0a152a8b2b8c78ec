import Stepwise.Proofs.Linear.Coherence
import Stepwise.Proofs.Linear.Sweep

/-!
# Zeros on the diagonal

The iterative methods divide by the entries on the diagonal, so they look for a zero among these
before the first pass. They look in the rows as they are iterated, and yet tell the number of a row
of the caller: where rows have been moved, no entry on the diagonal is zero.

- `zeroRows`: the rows of the caller with a zero on the diagonal
- `ending_sweepStart_eq_zeroDiagonal_iff`: which of them an iteration is refused for
- `Quotients`, `sweepDividing`: an iteration that leaves nothing behind but what it divides by
- `ending_sweepDividing`, `ne_zero_sweepDividing`: how it ends, and its divisors
- `solve_refuses_first_zero`: the same of a solver
-/

namespace Stepwise.Linear

variable {n : ℕ} {s : System Float n} {kind : Sweep} {setup : Setup}

/-! ## The rows that are blamed -/

/-- The rows with a zero on the diagonal, counted from one. -/
def zeroRows (rows : List (List Float)) : Set ℕ :=
  {row | ∃ i x, row = i + 1 ∧ (rows[i]?.bind fun values => values[i]?) = some x ∧
    (x == 0.0) = true}

/-- The same of a system. -/
def System.zeroRows (s : System Float n) : Set ℕ :=
  {row | ∃ i : Fin n, row = i.val + 1 ∧ (s.coefficients.entry i i == 0.0) = true}

/-- A checked system has the entries of the rows, all of them finite. -/
theorem System.entry_of_check {required : ℕ} {rows : List (List Float)} {constants : List Float}
    {s : System Float rows.length} (checked : check required rows constants = .ok s)
    (i j : Fin rows.length) :
    (rows[i.val]?.bind fun values => values[j.val]?) = some (s.coefficients.entry i j) ∧
      (s.coefficients.entry i j).isFinite = true := by
  obtain ⟨-, -, eachRow, -⟩ := check_eq_ok_iff.1 checked
  obtain ⟨length, each⟩ := checkRow_eq_ok_iff.1 (eachRow i i.isLt)
  have inside : j.val < rows[i.val].length := length.symm ▸ j.isLt
  obtain ⟨finite, same⟩ := each j inside j.isLt
  rw [List.getElem?_eq_getElem i.isLt, Option.bind_some, List.getElem?_eq_getElem inside,
    Table.entry_eq_getElem, same]
  exact ⟨rfl, finite⟩

theorem zeroRows_of_check {required : ℕ} {rows : List (List Float)} {constants : List Float}
    {s : System Float rows.length} (checked : System.check required rows constants = .ok s) :
    zeroRows rows = s.zeroRows := by
  ext row
  constructor
  · rintro ⟨i, x, rfl, found, zero⟩
    obtain ⟨values, present, -⟩ := Option.bind_eq_some_iff.1 found
    obtain ⟨inside, -⟩ := List.getElem?_eq_some_iff.1 present
    have entry := (System.entry_of_check checked ⟨i, inside⟩ ⟨i, inside⟩).1
    rw [Option.some.inj (found.symm.trans entry)] at zero
    exact ⟨⟨i, inside⟩, rfl, zero⟩
  · rintro ⟨i, rfl, zero⟩
    exact ⟨i, _, rfl, (System.entry_of_check checked i i).1, zero⟩

/-- A search through all indices finds the least one. -/
theorem find?_finRange_eq_some_iff {p : Fin n → Bool} {i : Fin n} :
    (List.finRange n).find? p = some i ↔
      IsLeast {row | ∃ j : Fin n, row = j.val + 1 ∧ p j = true} (i.val + 1) := by
  rw [← Fin.find?_eq_find?_finRange, Fin.find?_eq_some_iff]
  constructor
  · rintro ⟨found, before⟩
    refine ⟨⟨i, rfl, found⟩, ?_⟩
    rintro _ ⟨j, rfl, also⟩
    refine Nat.succ_le_succ (not_lt.1 fun less => ?_)
    rw [before j less] at also
    cases also
  · rintro ⟨⟨j, same, found⟩, least⟩
    obtain rfl : i = j := Fin.ext (Nat.succ.inj same)
    refine ⟨found, fun j less => Bool.eq_false_iff.2 fun also => ?_⟩
    exact absurd (least ⟨j, rfl, also⟩) (not_le.2 (Nat.succ_lt_succ less))

/-- An iteration is refused for the first zero on the diagonal, if there is one and the rows stay
where they are. -/
theorem ending_sweepStart_eq_zeroDiagonal_iff
    (finite : ∀ i j, (s.coefficients.entry i j).isFinite = true) {row : ℕ} :
    (sweepStart setup s kind).ending = .error (.zeroDiagonal row) ↔
      dominantOrder s = none ∧ IsLeast s.zeroRows row := by
  cases ordered : dominantOrder s with
  | some order => simp [sweepStart_of_dominantOrder finite ordered]
  | none =>
    have arranged : s.arranged = s := by rw [System.arranged, ordered]
    rw [ending_sweepStart, arranged, eq_self, true_and]
    constructor
    · intro refused
      split at refused
      next i found =>
        cases refused
        exact find?_finRange_eq_some_iff.1 found
      next => cases refused
    · intro least
      obtain ⟨i, rfl, -⟩ := least.1
      rw [find?_finRange_eq_some_iff.2 least]

/-! ## What an iteration divides by -/

/-- A computation that leaves the numbers behind that it divides by. -/
abbrev Quotients (α : Type) := Trail Float Error α

/-- A division, which has a value whatever the divisor is. -/
def quotient (x y : Float) : Quotients Float := ⟨[y], .ok (x / y)⟩

/-- Solves an equation for its unknown on the diagonal. -/
def componentDividing (s : System Float n) (source : Vector Float n) (i : Fin n) :
    Quotients Float :=
  let sum := (others i).foldl (fun sum j => sum + s.coefficients.entry i j * source.get j) 0.0
  quotient (s.constants.get i - sum) (s.coefficients.entry i i)

/-- Updates the given unknowns one after another. -/
def updateDividing (s : System Float n) (kind : Sweep) (previous : Vector Float n) :
    List (Fin n) → Vector Float n → Quotients (List (Update n) × Vector Float n)
  | [], current => pure ([], current)
  | row :: rows, current => do
    let source := kind.source previous current
    let value ← componentDividing s source row
    let later ← updateDividing s kind previous rows (current.set row value row.isLt)
    return ({ row, source, value } :: later.1, later.2)

/-- A pass over all unknowns. -/
def passDividing (s : System Float n) (kind : Sweep) (previous : Vector Float n) :
    Quotients (Pass n) := do
  let updated ← updateDividing s kind previous (List.finRange n) previous
  return { previous, updates := updated.1, result := updated.2 }

/-- At most `remaining` passes, the first of them with number `count`. -/
def runDividing (setup : Setup) (s : System Float n) (kind : Sweep) :
    (count remaining : ℕ) → Vector Float n → Quotients (Solution Float)
  | _, 0, x => return ⟨x.toList, false⟩
  | count, remaining + 1, x => do
    let p ← passDividing s kind x
    if p.isFinite then
      if p.isSettled setup.tolerance then return ⟨p.result.toList, true⟩
      else runDividing setup s kind (count + 1) remaining p.result
    else .fail (.diverged count)

/-- An iteration from the zero vector, once the rows are arranged. -/
def sweepDividing (setup : Setup) (s : System Float n) (kind : Sweep) :
    Quotients (Solution Float) := do
  let arranged ← .ofExcept (sweepStart setup s kind).ending
  runDividing setup arranged kind 1 maxPasses (Vector.replicate n 0.0)

/-! ### How it ends -/

theorem ending_updateDividing {previous current : Vector Float n} {rows : List (Fin n)} :
    (updateDividing s kind previous rows current).ending =
      .ok (updateFrom s kind previous rows current) := by
  induction rows generalizing current with
  | nil => rfl
  | cons row rows ih =>
    rw [updateDividing, Trail.ending_bind_of_ok _ rfl, Trail.ending_bind_of_ok _ ih]
    rfl

theorem ending_passDividing {previous : Vector Float n} :
    (passDividing s kind previous).ending = .ok (pass s kind previous) :=
  Trail.ending_bind_of_ok _ ending_updateDividing

theorem ending_runDividing {count remaining : ℕ} {x : Vector Float n} :
    (runDividing setup s kind count remaining x).ending =
      runResult ((sweepScheme setup s kind).runFrom count remaining x) := by
  induction remaining generalizing count x with
  | zero => rfl
  | succ remaining ih =>
    rw [runDividing, Trail.ending_bind_of_ok _ ending_passDividing, Scheme.runFrom]
    cases attempted : (sweepScheme setup s kind).attempt count x with
    | error interruption =>
      obtain ⟨rfl, infinite⟩ := attempt_eq_error_iff.1 attempted
      rw [if_neg (Bool.eq_false_iff.1 infinite)]
      rfl
    | ok p =>
      obtain ⟨rfl, finite⟩ := attempt_eq_ok_iff.1 attempted
      rw [if_pos finite]
      have settles : (sweepScheme setup s kind).settles (pass s kind x) =
        (pass s kind x).isSettled setup.tolerance := rfl
      simp only [settles]
      cases (pass s kind x).isSettled setup.tolerance with
      | true => rfl
      | false => exact ih

theorem ending_sweepDividing (title : String) :
    (sweepDividing setup s kind).ending = (sweep title setup s kind).result := by
  rw [sweepDividing, sweep]
  cases started : (sweepStart setup s kind).ending with
  | error cause => exact (Report.result_conclude ..).symm
  | ok arranged =>
    rw [Trail.ending_bind_of_ok _ rfl, ending_runDividing]
    exact (Report.result_conclude ..).symm

theorem ending_sweepDividing_eq_zeroDiagonal_iff {row : ℕ} :
    (sweepDividing setup s kind).ending = .error (.zeroDiagonal row) ↔
      (sweepStart setup s kind).ending = .error (.zeroDiagonal row) := by
  rw [sweepDividing, Trail.ending_bind_eq_error_iff]
  refine or_iff_left ?_
  rintro ⟨arranged, -, failed⟩
  rw [ending_runDividing] at failed
  obtain ⟨_, ⟨⟩⟩ := exists_diverged_of_runResult failed

/-! ### Its divisors -/

/-- The entries on the diagonal. -/
def System.diagonal (s : System Float n) : List Float :=
  (List.finRange n).map fun i => s.coefficients.entry i i

/-- Each update divides by the entry on the diagonal of its own row. -/
theorem entries_updateDividing {previous current : Vector Float n} {rows : List (Fin n)} :
    (updateDividing s kind previous rows current).entries =
      rows.map fun i => s.coefficients.entry i i := by
  induction rows generalizing current with
  | nil => rfl
  | cons row rows ih =>
    rw [updateDividing, Trail.bind_of_ok _ rfl, Trail.bind_of_ok _ ending_updateDividing, ih,
      List.map_cons]
    simp [componentDividing, quotient]

/-- A pass divides by each entry on the diagonal once. -/
theorem entries_passDividing {previous : Vector Float n} :
    (passDividing s kind previous).entries = s.diagonal := by
  rw [passDividing, Trail.bind_of_ok _ ending_updateDividing, entries_updateDividing]
  exact List.append_nil _

theorem entries_runDividing_subset {count remaining : ℕ} {x : Vector Float n} :
    (runDividing setup s kind count remaining x).entries ⊆ s.diagonal := by
  induction remaining generalizing count x with
  | zero => exact List.nil_subset _
  | succ remaining ih =>
    rw [runDividing]
    refine Trail.forall_mem_entries_bind_iff.2 ⟨fun d mem => ?_, fun p _ => ?_⟩
    · rwa [entries_passDividing] at mem
    · split
      next =>
        split
        next => exact nofun
        next => exact ih
      next => exact nofun

/-- No iteration starts with a zero on the diagonal. -/
theorem regular_of_ending_sweepStart {arranged : System Float n}
    (started : (sweepStart setup s kind).ending = .ok arranged) :
    ∀ d ∈ arranged.diagonal, (d == 0.0) = false := by
  rw [ending_sweepStart] at started
  split at started
  next => cases started
  next none =>
    cases started
    refine List.forall_mem_map.2 fun i mem => ?_
    exact Bool.eq_false_iff.2 (List.find?_eq_none.1 none i mem)

theorem ne_zero_sweepDividing :
    ∀ d ∈ (sweepDividing setup s kind).entries, (d == 0.0) = false := by
  rw [sweepDividing]
  refine Trail.forall_mem_entries_bind_iff.2 ⟨nofun, fun arranged started d mem => ?_⟩
  exact regular_of_ending_sweepStart started d (entries_runDividing_subset mem)

/-! ## Solutions -/

/-- An iteration that ends as the computation does, and divides by nothing that is zero. -/
structure SweepsSafely (divisions : Quotients (Solution Float)) (outcome : Outcome)
    (iterations : List (List Float)) (error? : Option Error) : Prop where
  solved : ∀ solution, divisions.ending = .ok solution →
    outcome = (if solution.converged then .converged else .exhausted) ∧
      iterations.getLast? = some solution.values ∧ error? = none
  failed : ∀ cause, divisions.ending = .error cause → outcome = .failed ∧ error? = some cause
  divisors : ∀ d ∈ divisions.entries, (d == 0.0) = false

theorem SweepsSafely.error_eq_some_iff {divisions : Quotients (Solution Float)} {outcome : Outcome}
    {iterations : List (List Float)} {error? : Option Error}
    (safely : SweepsSafely divisions outcome iterations error?) {cause : Error} :
    error? = some cause ↔ divisions.ending = .error cause := by
  cases ended : divisions.ending with
  | ok solution =>
    obtain ⟨-, -, rfl⟩ := safely.solved solution ended
    exact iff_of_false nofun nofun
  | error other =>
    obtain ⟨-, rfl⟩ := safely.failed other ended
    simp

theorem sweepsSafely_sweep {title : String} (nonempty : 0 < n) :
    let r := sweep title setup s kind
    SweepsSafely (sweepDividing setup s kind) r.outcome r.iterations r.error? := by
  obtain ⟨-, accounts⟩ := coherent_sweep title setup s kind nonempty
  refine ⟨fun solution ended => ?_, fun cause ended => ?_, ne_zero_sweepDividing⟩
  · rw [ending_sweepDividing title] at ended
    have outcome : (sweep title setup s kind).outcome =
        if solution.converged then .converged else .exhausted := by rw [Report.outcome, ended]
    have succeeded : (sweep title setup s kind).outcome ≠ .failed := by
      rw [outcome]
      split <;> simp
    have last := accounts.success succeeded
    rw [Report.solution, ended] at last
    exact ⟨outcome, last, by rw [Report.error?, ended]⟩
  · rw [ending_sweepDividing title] at ended
    exact ⟨by rw [Report.outcome, ended], by rw [Report.error?, ended]⟩

theorem Sweep.sweepsSafely_report (nonempty : 0 < n) :
    let r := kind.report setup s
    SweepsSafely (sweepDividing setup s kind) r.outcome r.iterations r.error? := by
  cases kind <;> exact sweepsSafely_sweep nonempty

/-- On a system that has passed the checks, the iterative methods fail for a zero on the diagonal
only if no order of the rows is found in which they dominate, and then for the first row with a zero
there as the caller has numbered them. In an order that is found there is no such zero, and nothing
that a pass divides by is zero. -/
theorem solve_refuses_first_zero (kind : Sweep) (e : Engine kind.method) (rows : List (List Float))
    (constants : List Float) (s : System Float rows.length) (tolerance? : Option Float)
    (checked : System.check 1 rows constants = .ok s) :
    let r := e.solve rows constants tolerance?
    (∀ row, r.2.error? = some (.zeroDiagonal row) ↔
      tolerance?.all isTolerance = true ∧ dominantOrder s = none ∧ IsLeast (zeroRows rows) row) ∧
    (∀ order, dominantOrder s = some order →
      (sweepStart r.2.setup s kind).ending = .ok (s.arrange order) ∧
      ∀ i, ((s.arrange order).coefficients.entry i i == 0.0) = false) ∧
    (tolerance?.all isTolerance = true →
      SweepsSafely (sweepDividing r.2.setup s kind) r.1 r.2.iterations r.2.error?) := by
  have finite (i j : Fin rows.length) := (System.entry_of_check checked i j).2
  have nonempty : 0 < rows.length := List.length_pos_iff.2 (System.check_eq_ok_iff.1 checked).1
  have safely (accepted : tolerance?.all isTolerance = true) :
      let r := e.solve rows constants tolerance?
      SweepsSafely (sweepDividing r.2.setup s kind) r.1 r.2.iterations r.2.error? := by
    rw [Engine.solve_of_all_accepted accepted]
    dsimp only [Engine.setup_showing]
    rw [Sweep.report_of_checked checked]
    exact Sweep.sweepsSafely_report nonempty
  refine ⟨fun row => ?_, fun order found => ?_, safely⟩
  · cases accepted : tolerance?.all isTolerance with
    | true =>
      rw [(safely accepted).error_eq_some_iff, ending_sweepDividing_eq_zeroDiagonal_iff,
        ending_sweepStart_eq_zeroDiagonal_iff finite, zeroRows_of_check checked]
      simp
    | false =>
      obtain ⟨tolerance, rfl, refused⟩ := (Option.all_eq_false _ _).1 accepted
      rw [Engine.solve_of_refused refused]
      exact iff_of_false nofun nofun
  · exact ⟨sweepStart_of_dominantOrder finite found _ kind, System.regular_arrange finite found⟩

/-- Two zeros on the diagonal, the first of them in the second row, and no row that dominates. Where
the rows change places instead, zeros on the diagonal do no harm. -/
theorem solve_refuses_second_row :
    let rows : List (List Float) := [[1.0, 2.0, 2.0], [1.0, 0.0, 1.0], [1.0, 1.0, -0.0]]
    let constants : List Float := [1.0, 2.0, 3.0]
    let s : System Float 3 := {
      coefficients := #v[#v[1.0, 2.0, 2.0], #v[1.0, 0.0, 1.0], #v[1.0, 1.0, -0.0]]
      constants := #v[1.0, 2.0, 3.0] }
    let t : System Float 2 := {
      coefficients := #v[#v[0.0, 2.0], #v[3.0, 0.0]]
      constants := #v[1.0, 2.0] }
    let e : Engine Sweep.jacobi.method := .make {}
    let r := e.solve rows constants (some 0.5)
    System.check 1 rows constants = .ok s ∧ (some 0.5).all isTolerance = true ∧
      dominantOrder s = none ∧ r.2.error? = some (.zeroDiagonal 2) ∧
      SweepsSafely (sweepDividing r.2.setup s .jacobi) r.1 r.2.iterations r.2.error? ∧
      System.check 1 [[0.0, 2.0], [3.0, 0.0]] [1.0, 2.0] = .ok t ∧
      dominantOrder t = some #v[1, 0] ∧
      ∀ i, ((t.arrange #v[1, 0]).coefficients.entry i i == 0.0) = false := by
  intro rows constants s t e r
  have checked : System.check 1 rows constants = .ok s := rfl
  have accepted : (some 0.5).all isTolerance = true := by decide +kernel
  have none : dominantOrder s = none := by decide +kernel
  obtain ⟨blames, -, safely⟩ :=
    solve_refuses_first_zero .jacobi e rows constants s (some 0.5) checked
  have least : IsLeast (zeroRows rows) 2 := by
    refine ⟨⟨1, 0.0, rfl, rfl, by decide +kernel⟩, ?_⟩
    rintro _ ⟨i, x, rfl, found, zero⟩
    obtain rfl | later := i.eq_zero_or_pos
    · cases found
      exact absurd zero (by decide +kernel)
    · exact Nat.succ_le_succ later
  have checked' : System.check 1 [[0.0, 2.0], [3.0, 0.0]] [1.0, 2.0] = .ok t := rfl
  have ordered : dominantOrder t = some #v[1, 0] := by decide +kernel
  obtain ⟨-, arranges, -⟩ :=
    solve_refuses_first_zero .jacobi e [[0.0, 2.0], [3.0, 0.0]] [1.0, 2.0] t (some 0.5) checked'
  exact ⟨checked, accepted, none, (blames 2).2 ⟨accepted, none, least⟩, safely accepted, checked',
    ordered, (arranges _ ordered).2⟩

end Stepwise.Linear
