import Mathlib.LinearAlgebra.Matrix.Notation
import Mathlib.Tactic.FinCases
import Stepwise.Proofs.Linear.BackSubstitution
import Stepwise.Proofs.Linear.Checking
import Stepwise.Proofs.Linear.Determinant

/-!
# What the direct methods find

- `gaussian_converged_iff`: Gaussian elimination solves exactly the systems that are not singular
- `cramer_exact`: the expansion is the determinant, and Cramer's rule solves what it does not refuse
- `direct_methods_agree`: whatever Cramer's rule solves, elimination solves with the same fractions
-/

namespace Stepwise.Linear

open Matrix

variable {m n : ℕ} {A : Matrix (Fin n) (Fin n) ℚ} {v : Fin n → ℚ}

theorem System.Holds.eq {s : System Fraction n} (holds : s.Holds A v) :
    s.matrix = A ∧ s.vector = v := by
  refine ⟨?_, ?_⟩
  · ext i j
    exact holds.matrix i j
  · ext i
    exact holds.vector i

theorem map_value_toList (x : Vector Fraction n) :
    x.toList.map Fraction.value = List.ofFn (values x) := by
  apply List.ext_getElem
  · simp
  · intro i _ _
    simp only [List.getElem_map, Vector.getElem_toList, List.getElem_ofFn]
    rfl

theorem mulVec_injective_of_det_ne_zero (regular : A.det ≠ 0) : Function.Injective A.mulVec :=
  mulVec_injective_of_isUnit ((isUnit_iff_isUnit_det A).2 regular.isUnit)

/-! ## Trails -/

/-- Elimination and back substitution in a system that is not singular. -/
theorem gaussianTrail_of_det_ne_zero (setup : Setup) {s : System Float m}
    {e : System Fraction m} (exact : s.exact = .ok e) (holds : e.Holds A v) (regular : A.det ≠ 0) :
    ∃ found, (gaussianTrail setup s).ending = .ok found ∧
      ∃ x : Fin n → ℚ, found.map Fraction.value = List.ofFn x ∧ A *ᵥ x = v := by
  obtain rfl := holds.size
  obtain ⟨rfl, rfl⟩ := holds.eq
  rw [← System.square_augmented] at regular
  obtain ⟨triangular, eliminated, equivalent, reduced⟩ := eliminate_of_det_ne_zero regular
  obtain ⟨x, substituted, solves⟩ := backSubstitute_solves reduced (Vector.replicate m 0)
  refine ⟨x.toList, ?_, values x, map_value_toList x, ?_⟩
  · rw [gaussianTrail, Trail.ending_bind_of_ok _ exact, Trail.ending_bind_of_ok _ rfl,
      Trail.ending_bind_of_ok _ ((Trail.ending_expand _ _).trans eliminated),
      Trail.ending_bind_of_ok _ rfl,
      Trail.ending_bind_of_ok _ ((Trail.ending_expand _ _).trans substituted)]
    rfl
  · rw [← System.square_augmented, ← System.right_augmented]
    exact (equivalent.solves_iff _).1 solves

/-- The method fails as elimination does. -/
theorem gaussianTrail_of_stuck (setup : Setup) {s : System Float m} {e : System Fraction m}
    (exact : s.exact = .ok e) {cause : Error}
    (stuck : (eliminate (List.finRange m) e.augmented).ending = .error cause) :
    (gaussianTrail setup s).ending = .error cause := by
  rw [gaussianTrail, Trail.ending_bind_of_ok _ exact, Trail.ending_bind_of_ok _ rfl]
  exact Trail.ending_bind_of_error _ ((Trail.ending_expand _ _).trans stuck)

theorem gaussianTrail_of_det_eq_zero (setup : Setup) {s : System Float m}
    {e : System Fraction m} (exact : s.exact = .ok e) (holds : e.Holds A v)
    (singular : A.det = 0) :
    ∃ column, (gaussianTrail setup s).ending = .error (.zeroPivot column) := by
  obtain rfl := holds.size
  obtain ⟨rfl, rfl⟩ := holds.eq
  rw [← System.square_augmented] at singular
  obtain ⟨column, stuck⟩ := eliminate_of_det_eq_zero singular
  exact ⟨column, gaussianTrail_of_stuck setup exact stuck⟩

/-- Cramer's rule refuses a system by the size of its determinant; otherwise it divides by it. -/
theorem ending_cramerTrail (setup : Setup) {s : System Float m} {e : System Fraction m}
    (exact : s.exact = .ok e) : (cramerTrail setup s).ending =
      if isSingular setup (determinant e.coefficients) then
        .error (.singular (determinant e.coefficients))
      else (cramerSteps e (determinant e.coefficients) (List.finRange m)).ending := by
  rw [cramerTrail, Trail.ending_bind_of_ok _ exact, Trail.ending_bind_of_ok _ rfl,
    Trail.ending_bind_of_ok _ rfl]
  change (Trail.write _ >>= _).ending = _
  rw [Trail.ending_bind_of_ok _ rfl]
  split <;> rfl

theorem cramerTrail_ending (setup : Setup) {s : System Float m} {e : System Fraction m}
    (exact : s.exact = .ok e) (holds : e.Holds A v) :
    ∃ det : Fraction, det.value = A.det ∧
      (cramerTrail setup s).ending =
        if isSingular setup det then .error (.singular det)
        else (cramerSteps e det (List.finRange m)).ending := by
  obtain rfl := holds.size
  obtain ⟨rfl, rfl⟩ := holds.eq
  exact ⟨determinant e.coefficients, value_determinant _, ending_cramerTrail setup exact⟩

theorem cramerSteps_of_det_ne_zero {e : System Fraction m} (holds : e.Holds A v) {det : Fraction}
    (value : det.value = A.det) (regular : A.det ≠ 0) :
    ∃ found, (cramerSteps e det (List.finRange m)).ending = .ok found ∧
      found.map Fraction.value = List.ofFn fun i => (A.updateCol i v).det / A.det := by
  obtain rfl := holds.size
  obtain ⟨rfl, rfl⟩ := holds.eq
  rw [← value] at regular ⊢
  obtain ⟨found, ending, values⟩ := cramerSteps_ending e regular (List.finRange m)
  exact ⟨found, ending, values.trans (List.ofFn_eq_map).symm⟩

theorem cramerSteps_of_det_eq_zero {e : System Fraction m} (holds : e.Holds A v) {det : Fraction}
    (value : det.value = A.det) (singular : A.det = 0) (nonempty : 0 < n) :
    (cramerSteps e det (List.finRange m)).ending = .error (.fraction .divideByZero) := by
  obtain rfl := holds.size
  obtain ⟨columns, split⟩ : ∃ columns, List.finRange m = ⟨0, nonempty⟩ :: columns := by
    cases m with
    | zero => cases nonempty
    | succ m => exact ⟨_, List.finRange_succ⟩
  rw [split]
  exact cramerSteps_ending_of_zero e (value.trans singular) _ _

/-! ## Results -/

section

variable {rows : List (List Float)} {constants : List Float} {s : System Float rows.length}
  {setup : Setup}

theorem report_of_check_gaussian (checked : System.check 1 rows constants = .ok s) :
    Method.gaussian.report setup rows constants =
      gaussian (Method.title .gaussian) setup s := by
  simp only [Method.report, Method.required, checked]

theorem result_of_check_gaussian (checked : System.check 1 rows constants = .ok s) :
    (Method.gaussian.report setup rows constants).result =
      (gaussianTrail setup s).ending.map fun values => { values, converged := true } := by
  rw [report_of_check_gaussian checked]
  exact Report.result_ofTrail _ _ _

theorem result_of_check_cramer (checked : System.check 2 rows constants = .ok s) :
    (Method.cramer.report setup rows constants).result =
      (cramerTrail setup s).ending.map fun values => { values, converged := true } := by
  simp only [Method.report, Method.required, checked]
  exact Report.result_ofTrail _ _ _

end

section

variable {a : Matrix (Fin n) (Fin n) Float} {b : Fin n → Float}

theorem gaussian_result_of_det_ne_zero (image : ExactImage a b A v) (nonempty : 1 ≤ n)
    (regular : A.det ≠ 0) (setup : Setup) :
    ∃ found, (Method.gaussian.report setup (listed a) (List.ofFn b)).result =
        .ok { values := found, converged := true } ∧
      ∃ x : Fin n → ℚ, found.map Fraction.value = List.ofFn x ∧ A *ᵥ x = v := by
  obtain ⟨s, e, checked, exact, holds⟩ := image.exists_exact nonempty nonempty
  obtain ⟨found, ending, solution⟩ := gaussianTrail_of_det_ne_zero setup exact holds regular
  refine ⟨found, ?_, solution⟩
  rw [result_of_check_gaussian checked, ending]
  rfl

theorem gaussian_result_of_det_eq_zero (image : ExactImage a b A v) (nonempty : 1 ≤ n)
    (singular : A.det = 0) (setup : Setup) :
    ∃ column, (Method.gaussian.report setup (listed a) (List.ofFn b)).result =
      .error (.zeroPivot column) := by
  obtain ⟨s, e, checked, exact, holds⟩ := image.exists_exact nonempty nonempty
  obtain ⟨column, ending⟩ := gaussianTrail_of_det_eq_zero setup exact holds singular
  refine ⟨column, ?_⟩
  rw [result_of_check_gaussian checked, ending]
  rfl

/-- Cramer's rule refuses a system, solves it, or fails to divide by zero. -/
theorem cramer_result (image : ExactImage a b A v) (enough : 2 ≤ n) (setup : Setup) :
    ∃ det : Fraction, det.value = A.det ∧
      let result := (Method.cramer.report setup (listed a) (List.ofFn b)).result
      (isSingular setup det = true → result = .error (.singular det)) ∧
      (isSingular setup det = false → A.det = 0 →
        result = .error (.fraction .divideByZero)) ∧
      (isSingular setup det = false → A.det ≠ 0 →
        ∃ found, result = .ok { values := found, converged := true } ∧
          found.map Fraction.value = List.ofFn fun i => (A.updateCol i v).det / A.det) := by
  have nonempty : 0 < n := Nat.lt_of_lt_of_le Nat.zero_lt_two enough
  obtain ⟨s, e, checked, exact, holds⟩ := image.exists_exact nonempty enough
  obtain ⟨det, value, ending⟩ := cramerTrail_ending setup exact holds
  refine ⟨det, value, ?_, ?_, ?_⟩
  · intro refused
    rw [result_of_check_cramer checked, ending, if_pos refused]
    rfl
  · intro accepted singular
    rw [result_of_check_cramer checked, ending, if_neg (by simp [accepted]),
      cramerSteps_of_det_eq_zero holds value singular nonempty]
    rfl
  · intro accepted regular
    obtain ⟨found, steps, values⟩ := cramerSteps_of_det_ne_zero holds value regular
    refine ⟨found, ?_, values⟩
    rw [result_of_check_cramer checked, ending, if_neg (by simp [accepted]), steps]
    rfl

/-- A determinant of zero is below every tolerance. -/
theorem isSingular_of_value_eq_zero {settings : Settings}
    (tolerance : isTolerance settings.tolerance = true) {det : Fraction} (zero : det.value = 0) :
    isSingular settings det = true := by
  have same : det = 0 := Fraction.value_injective (zero.trans Fraction.value_zero.symm)
  have toFloat : (0 : Fraction).abs.toFloat = 0.0 := by rfl
  rw [isTolerance, Bool.and_eq_true] at tolerance
  rw [isSingular, same, toFloat]
  exact tolerance.2

/-! ## The solvers -/

theorem exactImage_two_by_two :
    ExactImage !![2.0, 1.0; 1.0, 3.0] ![3.0, 5.0] !![2, 1; 1, 3] ![3, 5] := by
  constructor
  · intro i j
    fin_cases i <;> fin_cases j
    · exact ⟨.ofInt 2, rfl, by simp⟩
    · exact ⟨.ofInt 1, rfl, by simp⟩
    · exact ⟨.ofInt 1, rfl, by simp⟩
    · exact ⟨.ofInt 3, rfl, by simp⟩
  · intro i
    fin_cases i
    · exact ⟨.ofInt 3, rfl, by simp⟩
    · exact ⟨.ofInt 5, rfl, by simp⟩

theorem det_two_by_two : (!![2, 1; 1, 3] : Matrix (Fin 2) (Fin 2) ℚ).det = 5 := by
  rw [det_fin_two_of]
  norm_num

/-- Gaussian elimination solves exactly the systems with a determinant other than zero. -/
theorem gaussian_converged_iff (solver : Solver .gaussian) (nonempty : 1 ≤ n)
    (image : ExactImage a b A v) :
    ∃ report, (solver.solve (listed a) (List.ofFn b)).report? = some report ∧
      (report.outcome = .converged ↔ A.det ≠ 0) ∧
      (A.det ≠ 0 → ∃ x : Fin n → ℚ, report.solution.map Fraction.value = List.ofFn x ∧
        A *ᵥ x = v ∧ ∀ y, A *ᵥ y = v → y = x) ∧
      (A.det = 0 → report.outcome = .failed ∧ (∃ column, report.error? = some (.zeroPivot column)) ∧
        report.solution = []) := by
  refine ⟨_, rfl, ?_⟩
  rcases eq_or_ne A.det 0 with singular | regular
  · obtain ⟨column, result⟩ :=
      gaussian_result_of_det_eq_zero image nonempty singular solver.settings
    refine ⟨?_, fun regular => absurd singular regular, fun _ => ⟨?_, ⟨column, ?_⟩, ?_⟩⟩
    · simp [Report.outcome, result, singular]
    · rw [Report.outcome, result]
    · rw [Report.error?, result]
    · rw [Report.solution, result]
  · obtain ⟨found, result, x, values, solves⟩ :=
      gaussian_result_of_det_ne_zero image nonempty regular solver.settings
    refine ⟨?_, fun _ => ⟨x, ?_, solves, fun y other => ?_⟩,
      fun singular => absurd singular regular⟩
    · simp [Report.outcome, result, regular]
    · rw [Report.solution, result, values]
    · exact mulVec_injective_of_det_ne_zero regular (other.trans solves.symm)

theorem gaussian_converged_iff_two_by_two :
    ∃ report, (Solver.solve (⟨{}, none⟩ : Solver .gaussian)
        (listed !![2.0, 1.0; 1.0, 3.0]) (List.ofFn ![3.0, 5.0])).report? = some report ∧
      report.outcome = .converged ∧ report.solution.map Fraction.value = [4 / 5, 7 / 5] := by
  obtain ⟨report, made, converged, solution, -⟩ :=
    gaussian_converged_iff ⟨{}, none⟩ (by decide) exactImage_two_by_two
  have regular : (!![2, 1; 1, 3] : Matrix (Fin 2) (Fin 2) ℚ).det ≠ 0 := by
    rw [det_two_by_two]
    decide
  obtain ⟨x, values, -, unique⟩ := solution regular
  refine ⟨report, made, converged.2 regular, ?_⟩
  rw [values, ← unique ![4 / 5, 7 / 5] (by ext i; fin_cases i <;> norm_num [mulVec, dotProduct])]
  simp [List.ofFn_succ]

/-- The expansion along the first row is the determinant, and whatever Cramer's rule answers is the
exact solution. -/
theorem cramer_exact :
    (∀ {n : ℕ} (t : Table Fraction n n), (determinant t).value = t.matrix.det) ∧
    ∀ {n : ℕ} {a : Matrix (Fin n) (Fin n) Float} {b : Fin n → Float}
      {A : Matrix (Fin n) (Fin n) ℚ} {v : Fin n → ℚ} (solver : Solver .cramer),
      2 ≤ n → ExactImage a b A v →
      ∃ report, (solver.solve (listed a) (List.ofFn b)).report? = some report ∧
        (report.outcome = .converged →
          A.det ≠ 0 ∧ ∃ x : Fin n → ℚ, report.solution.map Fraction.value = List.ofFn x ∧
            A *ᵥ x = v ∧ ∀ i, x i = (A.updateCol i v).det / A.det) := by
  refine ⟨value_determinant, ?_⟩
  intro n a b A v solver enough image
  refine ⟨_, rfl, fun converged => ?_⟩
  obtain ⟨det, -, refused, undivided, solved⟩ := cramer_result image enough solver.settings
  rw [Report.outcome] at converged
  cases below : isSingular solver.settings det with
  | true =>
    rw [refused below] at converged
    cases converged
  | false =>
    rcases eq_or_ne A.det 0 with singular | regular
    · rw [undivided below singular] at converged
      cases converged
    · obtain ⟨found, result, values⟩ := solved below regular
      refine ⟨regular, _, ?_, mulVec_cramer_div regular v, fun i => rfl⟩
      rw [Report.solution, result, values]

theorem cramer_exact_two_by_two :
    ∃ report, (Solver.solve (⟨{}, none⟩ : Solver .cramer)
        (listed !![2.0, 1.0; 1.0, 3.0]) (List.ofFn ![3.0, 5.0])).report? = some report ∧
      report.outcome = .converged ∧ ∃ x : Fin 2 → ℚ,
        report.solution.map Fraction.value = List.ofFn x ∧ !![2, 1; 1, 3] *ᵥ x = ![3, 5] := by
  obtain ⟨report, made, solution⟩ :=
    cramer_exact.2 ⟨{}, none⟩ (by decide) exactImage_two_by_two
  have converged : report.outcome = .converged := by
    cases made
    decide +kernel
  obtain ⟨-, x, values, solves, -⟩ := solution converged
  exact ⟨report, made, converged, x, values, solves⟩

/-- The two direct methods find the same fractions, and refuse a determinant of zero alike. -/
theorem direct_methods_agree (cramer : Solver .cramer) (gaussian : Solver .gaussian)
    (tolerance : isTolerance cramer.settings.tolerance = true) (enough : 2 ≤ n)
    (image : ExactImage a b A v) :
    ∃ byCramer byGaussian,
      (cramer.solve (listed a) (List.ofFn b)).report? = some byCramer ∧
      (gaussian.solve (listed a) (List.ofFn b)).report? = some byGaussian ∧
      (byCramer.outcome = .converged →
        byGaussian.outcome = .converged ∧ byGaussian.solution = byCramer.solution) ∧
      ((∃ column, byGaussian.error? = some (.zeroPivot column)) →
        ∃ det, byCramer.error? = some (.singular det)) := by
  have nonempty : 1 ≤ n := Nat.le_of_succ_le enough
  refine ⟨_, _, rfl, rfl, ?_⟩
  obtain ⟨det, value, refused, -, solved⟩ := cramer_result image enough cramer.settings
  rcases eq_or_ne A.det 0 with singular | regular
  · have below := refused (isSingular_of_value_eq_zero tolerance (value.trans singular))
    refine ⟨fun converged => ?_, fun _ => ⟨det, ?_⟩⟩
    · rw [Report.outcome, below] at converged
      cases converged
    · rw [Report.error?, below]
  · obtain ⟨found, result, x, values, solves⟩ :=
      gaussian_result_of_det_ne_zero image nonempty regular gaussian.settings
    refine ⟨fun converged => ⟨?_, ?_⟩, fun ⟨column, failed⟩ => ?_⟩
    · rw [Report.outcome, result]
      rfl
    · cases below : isSingular cramer.settings det with
      | true =>
        rw [Report.outcome, refused below] at converged
        cases converged
      | false =>
        obtain ⟨found', result', values'⟩ := solved below regular
        -- Both are the only solution, and a value has only one fraction.
        have same : x = fun i => (A.updateCol i v).det / A.det :=
          mulVec_injective_of_det_ne_zero regular (solves.trans (mulVec_cramer_div regular v).symm)
        rw [Report.solution, Report.solution, result, result']
        exact Fraction.value_injective.list_map (by rw [values, values', same])
    · rw [Report.error?, result] at failed
      cases failed

theorem direct_methods_agree_two_by_two :
    ∃ byCramer byGaussian,
      (Solver.solve (⟨{}, none⟩ : Solver .cramer)
        (listed !![2.0, 1.0; 1.0, 3.0]) (List.ofFn ![3.0, 5.0])).report? = some byCramer ∧
      (Solver.solve (⟨{}, none⟩ : Solver .gaussian)
        (listed !![2.0, 1.0; 1.0, 3.0]) (List.ofFn ![3.0, 5.0])).report? = some byGaussian ∧
      byGaussian.outcome = .converged ∧ byGaussian.solution = byCramer.solution := by
  obtain ⟨byCramer, byGaussian, made, made', agree, -⟩ :=
    direct_methods_agree ⟨{}, none⟩ ⟨{}, none⟩ (by decide +kernel) (by decide)
      exactImage_two_by_two
  have converged : byCramer.outcome = .converged := by
    cases made
    decide +kernel
  exact ⟨byCramer, byGaussian, made, made', agree converged⟩

end

end Stepwise.Linear
