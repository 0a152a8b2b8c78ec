import Stepwise.Proofs.Linear.Conversion

/-!
# No direct method divides by zero

The direct methods once more, as computations that leave nothing behind but what they divide by.
They end as the methods do, and what they leave behind is never zero.

- `Dividing`, `dividing`: a division that leaves its divisor behind
- `gaussianDividing`, `cramerDividing`: the methods, and `ending_gaussianDividing`,
  `ending_cramerDividing`: how they end
- `nonzero_gaussianDividing`, `nonzero_cramerDividing`: their divisors
- `never_divides_by_zero`: the same of a solver, whatever it has been through
-/

namespace Stepwise.Linear

variable {n : ℕ}

/-- A computation that leaves its divisors behind. -/
abbrev Dividing (α : Type) := Trail Fraction Error α

/-- A division, which fails if the divisor is zero. -/
def dividing (a b : Fraction) : Dividing Fraction := ⟨[b], (a.divide b).mapError .fraction⟩

/-- None of the divisors is zero. -/
def Dividing.Nonzero {α : Type} (t : Dividing α) : Prop := ∀ d ∈ t.entries, d.value ≠ 0

/-! ## The divisions of Gaussian elimination -/

/-- Every row below the pivot has its entry divided by the pivot. -/
def clearColumnDividing (column : Fin n) : List (Fin n) → Augmented n → Dividing (Augmented n)
  | [], m => pure m
  | row :: rows, m => do
    let factor ← dividing (m.coefficient row column) (m.coefficient column column)
    clearColumnDividing column rows ((RowOperation.subtract row column factor).apply m)

/-- The matrix with the pivot of a column on the diagonal. -/
def pivoted (column : Fin n) (m : Augmented n) : Augmented n :=
  if pivotRow m column = column then m
  else (RowOperation.swap column (pivotRow m column)).apply m

/-- The pivot is tested before anything is divided by it. -/
def eliminateColumnDividing (column : Fin n) (m : Augmented n) : Dividing (Augmented n) :=
  if ((pivoted column m).coefficient column column).isZero then .fail (.zeroPivot (column.val + 1))
  else clearColumnDividing column (after column) (pivoted column m)

/-- Treats the columns in turn. -/
def eliminateDividing : List (Fin n) → Augmented n → Dividing (Augmented n)
  | [], m => pure m
  | column :: columns, m => do
    let m ← eliminateColumnDividing column m
    eliminateDividing columns m

/-- Every unknown is a quotient by the entry on the diagonal. -/
def backSubstituteDividing (m : Augmented n) :
    List (Fin n) → Vector Fraction n → Dividing (Vector Fraction n)
  | [], x => pure x
  | i :: rows, x => do
    let sum := (after i).foldl (fun sum j => sum - m.coefficient i j * x.get j) (m.constant i)
    let value ← dividing sum (m.coefficient i i)
    backSubstituteDividing m rows (x.set i value i.isLt)

/-- Solves a system by elimination and back substitution. -/
def gaussianDividing (s : System Float n) : Dividing (List Fraction) := do
  let exact ← .ofExcept s.exact
  let triangular ← eliminateDividing (List.finRange n) exact.augmented
  let solution ←
    backSubstituteDividing triangular (List.finRange n).reverse (Vector.replicate n 0)
  return solution.toList

/-! ### How they end -/

theorem ending_clearColumnDividing {column : Fin n} {rows : List (Fin n)} {m : Augmented n} :
    (clearColumnDividing column rows m).ending = (clearColumn column rows m).ending := by
  induction rows generalizing m with
  | nil => rfl
  | cons row rows ih =>
    refine Trail.ending_bind_congr rfl fun factor => ?_
    rw [perform]
    exact ih

theorem ending_eliminateColumnDividing {column : Fin n} {m : Augmented n} :
    (eliminateColumnDividing column m).ending = (eliminateColumn column m).ending := by
  have exchanged : (eliminateColumn column m).ending =
      (if ((pivoted column m).coefficient column column).isZero then
        .fail (.zeroPivot (column.val + 1))
      else clearColumn column (after column) (pivoted column m)).ending := by
    rw [eliminateColumn, pivoted]
    split <;> rfl
  rw [exchanged, eliminateColumnDividing]
  split
  next => rfl
  next => exact ending_clearColumnDividing

theorem ending_eliminateDividing {columns : List (Fin n)} {m : Augmented n} :
    (eliminateDividing columns m).ending = (eliminate columns m).ending := by
  induction columns generalizing m with
  | nil => rfl
  | cons column columns ih =>
    exact Trail.ending_bind_congr ending_eliminateColumnDividing fun m => ih

theorem ending_backSubstituteDividing {m : Augmented n} {rows : List (Fin n)}
    {x : Vector Fraction n} :
    (backSubstituteDividing m rows x).ending = (backSubstitute m rows x).ending := by
  induction rows generalizing x with
  | nil => rfl
  | cons i rows ih =>
    refine Trail.ending_bind_congr rfl fun value => ?_
    exact ih

theorem ending_gaussianDividing {setup : Setup} {s : System Float n} :
    (gaussianDividing s).ending = (gaussianTrail setup s).ending := by
  refine Trail.ending_bind_congr rfl fun exact => ?_
  rw [Trail.ending_write_bind]
  refine Trail.ending_bind_congr ending_eliminateDividing fun triangular => ?_
  rw [Trail.ending_write_bind]
  exact Trail.ending_bind_congr ending_backSubstituteDividing fun solution => rfl

/-! ### Their divisors -/

theorem reduced_of_eliminate {m m' : Augmented n}
    (ended : (eliminate (List.finRange n) m).ending = .ok m') : Reduced n m' := by
  obtain ⟨_, finished, -, reduced⟩ | ⟨_, _, stopped, -⟩ := eliminate_ending (.zero m)
  · rw [List.drop_zero, ended] at finished
    cases finished
    exact reduced
  · rw [List.drop_zero, ended] at stopped
    cases stopped

theorem Dividing.Nonzero.bind {α β : Type} {t : Dividing α} {f : α → Dividing β}
    (first : t.Nonzero) (rest : ∀ a, t.ending = .ok a → (f a).Nonzero) : (t >>= f).Nonzero :=
  Trail.forall_mem_entries_bind_iff.2 ⟨first, rest⟩

theorem Dividing.nonzero_pure {α : Type} (a : α) : (pure a : Dividing α).Nonzero := nofun

theorem Dividing.nonzero_ofExcept {α : Type} (r : Except Error α) :
    Dividing.Nonzero (.ofExcept r) := nofun

theorem nonzero_dividing {a b : Fraction} (nonzero : b.value ≠ 0) : (dividing a b).Nonzero := by
  intro d inside
  rwa [List.mem_singleton.1 inside]

/-- The row of the pivot is not among those that change, so every division is by the same pivot. -/
theorem nonzero_clearColumnDividing {column : Fin n} {rows : List (Fin n)} {m : Augmented n}
    (pivot : m.square column column ≠ 0) (outside : column ∉ rows) :
    (clearColumnDividing column rows m).Nonzero := by
  induction rows generalizing m with
  | nil => exact Dividing.nonzero_pure m
  | cons row rows ih =>
    obtain ⟨distinct, apart⟩ := not_or.1 (mt List.mem_cons.2 outside)
    refine (nonzero_dividing pivot).bind fun factor _ => ih ?_ apart
    rwa [square_subtract_of_ne distinct]

theorem nonzero_eliminateColumnDividing {column : Fin n} {m : Augmented n} :
    (eliminateColumnDividing column m).Nonzero := by
  rw [eliminateColumnDividing]
  split
  next => exact nofun
  next pivot =>
    exact nonzero_clearColumnDividing (mt Fraction.isZero_iff.2 pivot) (by simp [mem_after])

theorem nonzero_eliminateDividing {columns : List (Fin n)} {m : Augmented n} :
    (eliminateDividing columns m).Nonzero := by
  induction columns generalizing m with
  | nil => exact Dividing.nonzero_pure m
  | cons column columns ih => exact nonzero_eliminateColumnDividing.bind fun m _ => ih

/-- The entries on the diagonal were tested when their columns were treated. That they have not
changed since is the invariant of elimination. -/
theorem nonzero_backSubstituteDividing {m : Augmented n} (reduced : Reduced n m)
    {rows : List (Fin n)} {x : Vector Fraction n} :
    (backSubstituteDividing m rows x).Nonzero := by
  induction rows generalizing x with
  | nil => exact Dividing.nonzero_pure x
  | cons i rows ih =>
    exact (nonzero_dividing (reduced.pivot i i.isLt)).bind fun value _ => ih

theorem nonzero_gaussianDividing {s : System Float n} : (gaussianDividing s).Nonzero := by
  refine (Dividing.nonzero_ofExcept _).bind fun exact _ => ?_
  refine nonzero_eliminateDividing.bind fun triangular ended => ?_
  rw [ending_eliminateDividing] at ended
  refine (nonzero_backSubstituteDividing (reduced_of_eliminate ended)).bind fun solution _ => ?_
  exact Dividing.nonzero_pure _

/-! ## The divisions of Cramer's rule -/

/-- Every unknown is a quotient by the determinant of the system. -/
def cramerStepsDividing (s : System Fraction n) (det : Fraction) :
    List (Fin n) → Dividing (List Fraction)
  | [] => pure []
  | column :: columns => do
    let value ← dividing (determinant (replaceColumn s.coefficients column s.constants)) det
    return value :: (← cramerStepsDividing s det columns)

/-- Solves a system by determinants. -/
def cramerDividing (setup : Setup) (s : System Float n) : Dividing (List Fraction) := do
  let exact ← .ofExcept s.exact
  let det := determinant exact.coefficients
  if isSingular setup det then .fail (.singular det)
  else cramerStepsDividing exact det (List.finRange n)

theorem ending_cramerStepsDividing {s : System Fraction n} {det : Fraction}
    {columns : List (Fin n)} :
    (cramerStepsDividing s det columns).ending = (cramerSteps s det columns).ending := by
  induction columns with
  | nil => rfl
  | cons column columns ih =>
    rw [cramerStepsDividing, cramerSteps, cramerStep]
    generalize replaceColumn s.coefficients column s.constants = replaced
    cases division : (determinant replaced).divide det with
    | error cause =>
      have failed : (dividing (determinant replaced) det).ending = .error (.fraction cause) := by
        rw [dividing, division]
        rfl
      rw [Trail.ending_bind_of_error _ failed]
      rfl
    | ok value =>
      have divided : (dividing (determinant replaced) det).ending = .ok value := by
        rw [dividing, division]
        rfl
      rw [Trail.ending_bind_of_ok _ divided]
      refine Eq.trans ?_ (Trail.ending_bind_of_ok _ rfl).symm
      rw [Trail.ending_write_bind]
      exact Trail.ending_bind_congr ih fun rest => rfl

theorem ending_cramerDividing {setup : Setup} {s : System Float n} :
    (cramerDividing setup s).ending = (cramerTrail setup s).ending := by
  refine Trail.ending_bind_congr rfl fun exact => ?_
  simp only [Trail.ending_write_bind]
  split
  next => rfl
  next => exact ending_cramerStepsDividing

theorem nonzero_cramerStepsDividing {s : System Fraction n} {det : Fraction}
    (regular : det.value ≠ 0) {columns : List (Fin n)} :
    (cramerStepsDividing s det columns).Nonzero := by
  induction columns with
  | nil => exact Dividing.nonzero_pure []
  | cons column columns ih =>
    refine (nonzero_dividing regular).bind fun value _ => ih.bind fun rest _ => ?_
    exact Dividing.nonzero_pure _

/-- A determinant of zero is below the tolerance, whatever that is. -/
theorem nonzero_cramerDividing {settings : Settings} (sound : settings.Sound)
    {s : System Float n} : (cramerDividing settings s).Nonzero := by
  refine (Dividing.nonzero_ofExcept _).bind fun exact _ => ?_
  dsimp only
  split
  next => exact nofun
  next accepted =>
    have tolerance := isTolerance_iff.2 ⟨sound.tolerance_isFinite, sound.tolerance_pos⟩
    exact nonzero_cramerStepsDividing (mt (isSingular_of_value_eq_zero tolerance) accepted)

/-! ## Whole solutions -/

/-- Gaussian elimination with the checks before it. -/
def gaussianDivisions (rows : List (List Float)) (constants : List Float) :
    Dividing (List Fraction) := do
  let s ← .ofExcept (System.check Method.gaussian.required rows constants)
  gaussianDividing s

/-- Cramer's rule with the checks before it. -/
def cramerDivisions (setup : Setup) (rows : List (List Float)) (constants : List Float) :
    Dividing (List Fraction) := do
  let s ← .ofExcept (System.check Method.cramer.required rows constants)
  cramerDividing setup s

/-- A solution that ends as the computation does, and divides by nothing that is zero. -/
structure DividesSafely (divisions : Dividing (List Fraction)) (outcome : Outcome)
    (solution : List Fraction) (error? : Option Error) : Prop where
  solved : ∀ values, divisions.ending = .ok values →
    outcome = .converged ∧ solution = values ∧ error? = none
  failed : ∀ cause, divisions.ending = .error cause →
    outcome = .failed ∧ solution = [] ∧ error? = some cause
  divisors : ∀ d ∈ divisions.entries, d.value ≠ 0

theorem Report.dividesSafely {r : Report Fraction} {divisions : Dividing (List Fraction)}
    (result : r.result = divisions.ending.map fun values => { values, converged := true })
    (nonzero : divisions.Nonzero) : DividesSafely divisions r.outcome r.solution r.error? := by
  refine ⟨fun values ended => ?_, fun cause ended => ?_, nonzero⟩
  all_goals
    rw [ended] at result
    simp [outcome, solution, error?, result, Except.map]

variable {rows : List (List Float)} {constants : List Float} {settings : Settings}

theorem result_of_check_error {method : Method} {cause : Error}
    (checked : System.check method.required rows constants = .error cause) :
    (method.report settings rows constants).result = .error cause := by
  rw [Method.report, checked]
  exact Report.result_conclude ..

theorem dividesSafely_gaussian :
    let r := Method.gaussian.report settings rows constants
    DividesSafely (gaussianDivisions rows constants) r.outcome r.solution r.error? := by
  refine Report.dividesSafely ?_ ?_
  · rw [gaussianDivisions]
    cases checked : System.check Method.gaussian.required rows constants with
    | error cause => exact result_of_check_error checked
    | ok s =>
      rw [result_of_check_gaussian checked, Trail.ending_bind_of_ok _ rfl, ending_gaussianDividing]
  · exact (Dividing.nonzero_ofExcept _).bind fun s _ => nonzero_gaussianDividing

theorem dividesSafely_cramer (sound : settings.Sound) :
    let r := Method.cramer.report settings rows constants
    DividesSafely (cramerDivisions settings rows constants) r.outcome r.solution r.error? := by
  refine Report.dividesSafely ?_ ?_
  · rw [cramerDivisions]
    cases checked : System.check Method.cramer.required rows constants with
    | error cause => exact result_of_check_error checked
    | ok s =>
      rw [result_of_check_cramer checked, Trail.ending_bind_of_ok _ rfl, ending_cramerDividing]
  · exact (Dividing.nonzero_ofExcept _).bind fun s _ => nonzero_cramerDividing sound

/-- The only fraction that cannot be made is that of a number too great for the conversion. -/
theorem cause_of_fraction_error {method : Method} (direct : method.IsDirect)
    (sound : settings.Sound) {cause : Fraction.Error}
    (failed : (method.report settings rows constants).error? = some (.fraction cause)) :
    ∃ x, cause = .notFinite x := by
  cases checked : System.check method.required rows constants with
  | error flaw =>
    rw [Report.error?, result_of_check_error checked] at failed
    cases failed
    cases System.flaw_of_check checked
  | ok s =>
    cases converted : s.exact with
    | error other =>
      obtain ⟨x, -, -, rfl⟩ := System.exact_eq_error converted
      rw [Report.error?, result_of_conversion_error direct checked converted] at failed
      cases failed
      exact ⟨x, rfl⟩
    | ok exact =>
      have decides := decides_of_exact direct sound checked converted
      dsimp only at decides
      rw [failed] at decides
      exact absurd decides not_decides_of_fraction

/-! ## Solvers -/

theorem Engine.Sound.cause_of_fraction_error {method : Method} {e : Engine method}
    (sound : e.Sound) (direct : method.IsDirect) (tolerance? : Option Float)
    {cause : Fraction.Error}
    (failed : (e.solve rows constants tolerance?).2.error? = some (.fraction cause)) :
    ∃ x, cause = .notFinite x := by
  cases accepted : tolerance?.all isTolerance with
  | true =>
    have fresh := sound.opened accepted
    rw [solve_of_all_accepted accepted] at failed
    dsimp only at failed
    rw [fresh.setup_eq] at failed
    exact Linear.cause_of_fraction_error direct fresh.settings failed
  | false =>
    cases tolerance? with
    | none => cases accepted
    | some tolerance =>
      rw [solve_of_refused accepted] at failed
      cases failed

/-- Whatever a solver has been through and whatever it is given, a direct method does not fail for a
division by zero. It divides by nothing that is zero: neither by a pivot, nor by an entry on the
diagonal, nor by a determinant. -/
theorem never_divides_by_zero (choices : List Settings.Call) (calls : List Engine.Call)
    (rows : List (List Float)) (constants : List Float) (tolerance? : Option Float) :
    let chosen := ({} : Settings).after choices
    let byElimination := (.after (.make chosen) calls : Engine .gaussian).solve rows constants
      tolerance?
    let byDeterminants := (.after (.make chosen) calls : Engine .cramer).solve rows constants
      tolerance?
    (∀ cause, byElimination.2.error? = some (.fraction cause) ∨
      byDeterminants.2.error? = some (.fraction cause) → ∃ x, cause = .notFinite x) ∧
    (tolerance?.all isTolerance = true →
      DividesSafely (gaussianDivisions rows constants) byElimination.1 byElimination.2.solution
        byElimination.2.error? ∧
      DividesSafely (cramerDivisions byDeterminants.2.setup rows constants) byDeterminants.1
        byDeterminants.2.solution byDeterminants.2.error?) := by
  intro chosen
  have sound (method : Method) : (.after (.make chosen) calls : Engine method).Sound :=
    Engine.sound_after (Settings.sound_default.after choices) calls
  refine ⟨?_, fun accepted => ⟨?_, ?_⟩⟩
  · rintro cause (failed | failed)
    · exact (sound .gaussian).cause_of_fraction_error .gaussian tolerance? failed
    · exact (sound .cramer).cause_of_fraction_error .cramer tolerance? failed
  · have fresh := (sound .gaussian).opened accepted
    rw [Engine.solve_of_all_accepted accepted]
    dsimp only
    rw [fresh.setup_eq]
    exact dividesSafely_gaussian
  · have fresh := (sound .cramer).opened accepted
    rw [Engine.solve_of_all_accepted accepted]
    dsimp only [Engine.setup_showing]
    rw [fresh.setup_eq]
    exact dividesSafely_cramer fresh.settings

theorem never_divides_by_zero_two_by_two :
    let rows : List (List Float) := [[2.0, 1.0], [1.0, 3.0]]
    let e : Engine .cramer :=
      .after (.make (({} : Settings).after [.make 0.5])) [.solve [[0.0]] [1.0] none]
    let r := e.solve rows [3.0, 5.0] (some 0.25)
    (some 0.25).all isTolerance = true ∧
      DividesSafely (cramerDivisions r.2.setup rows [3.0, 5.0]) r.1 r.2.solution r.2.error? ∧
      ∃ x, Fraction.Error.notFinite 1e304 = .notFinite x := by
  intro rows e r
  have accepted : (some 0.25).all isTolerance = true := by decide +kernel
  have safely := (never_divides_by_zero [.make 0.5] [.solve [[0.0]] [1.0] none] rows [3.0, 5.0]
    (some 0.25)).2 accepted
  -- An error that can still occur: the conversion of a number that is too great.
  have possible := (never_divides_by_zero [] []
    (listed (!![1e304] : Matrix (Fin 1) (Fin 1) Float)) (@List.ofFn _ 1 ![1.0]) none).1
    (.notFinite 1e304)
  have fresh : (.after (.make (({} : Settings).after [])) [] : Engine .gaussian) = .make {} := rfl
  obtain ⟨-, -, -, error⟩ := solve_great_coefficient
  rw [fresh] at possible
  exact ⟨accepted, safely.2, possible (.inl error)⟩

end Stepwise.Linear
