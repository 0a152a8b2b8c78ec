import Stepwise.Proofs.Fraction.Conversion
import Stepwise.Proofs.Linear.DirectMethods
import Stepwise.Proofs.Linear.Engine

/-!
# Systems that do not become fractions

The direct methods check that all numbers are finite, and then convert them. A number that is too
great for the conversion passes the check and is refused by the conversion.

- `System.exact_eq_error`, `System.exists_exact_iff`: what the conversion of a system comes to
- `Decides`, `decides_of_exact`: with the fractions at hand, a direct method solves the system or
  finds that there is no unique solution
- `refused_by_conversion_iff`: which systems of finite numbers get that far
-/

namespace Stepwise.Linear

/-! ## Conversions that fail -/

namespace System

variable {α : Type} {n : ℕ}

/-- The number is a coefficient or a constant of the system. -/
def Mentions (s : System α n) (x : α) : Prop :=
  (∃ i j, s.coefficients.entry i j = x) ∨ ∃ i, s.constants.get i = x

theorem mentions_ofMatrix {a : Matrix (Fin n) (Fin n) α} {b : Fin n → α} {x : α} :
    (ofMatrix a b).Mentions x ↔ (∃ i j, a i j = x) ∨ ∃ i, b i = x := by
  simp [Mentions]

/-- A system of finite numbers passes the checks, which keep its numbers. -/
theorem exists_check_listed {a : Matrix (Fin n) (Fin n) Float} {b : Fin n → Float}
    (nonempty : 0 < n) {required : ℕ} (enough : required ≤ n)
    (finite : ∀ x, (ofMatrix a b).Mentions x → x.isFinite = true) :
    ∃ s, check required (listed a) (List.ofFn b) = .ok s ∧
      ∀ x, s.Mentions x ↔ (ofMatrix a b).Mentions x := by
  have kept {m : ℕ} (size : m = n) (x : Float) :
      (ofMatrix (a.submatrix (Fin.cast size) (Fin.cast size)) (b ∘ Fin.cast size)).Mentions x ↔
        (ofMatrix a b).Mentions x := by
    subst size
    rfl
  refine ⟨_, check_listed (length_listed a) nonempty enough ?_ ?_, kept (length_listed a)⟩
  · exact fun i j => finite _ (mentions_ofMatrix.2 (.inl ⟨i, j, rfl⟩))
  · exact fun i => finite _ (mentions_ofMatrix.2 (.inr ⟨i, rfl⟩))

variable {s : System Float n}

/-- The conversion fails for one of the numbers. -/
theorem exact_eq_error {cause : Error} (failed : s.exact = .error cause) :
    ∃ x, s.Mentions x ∧ (x.isFinite = true → ¬ Fraction.Fits x) ∧
      cause = .fraction (.notFinite x) := by
  have converted {x : Float}
      (refused : (Fraction.ofFloat x).mapError Error.fraction = .error cause) :
      (x.isFinite = true → ¬ Fraction.Fits x) ∧ cause = .fraction (.notFinite x) := by
    cases result : Fraction.ofFloat x with
    | ok a =>
      rw [result] at refused
      cases refused
    | error why =>
      obtain ⟨rfl, great⟩ := Fraction.ofFloat_eq_error_iff.1 result
      rw [result] at refused
      cases refused
      exact ⟨great, rfl⟩
  rw [exact, bind_eq_error_iff] at failed
  obtain failed | ⟨coefficients, -, failed⟩ := failed
  · obtain ⟨i, failed⟩ := exists_of_checkVector_eq_error failed
    obtain ⟨j, refused⟩ := exists_of_checkVector_eq_error failed
    exact ⟨_, .inl ⟨i, j, rfl⟩, converted refused⟩
  · obtain failed | ⟨_, -, made⟩ := bind_eq_error_iff.1 failed
    · obtain ⟨i, refused⟩ := exists_of_checkVector_eq_error failed
      exact ⟨_, .inr ⟨i, rfl⟩, converted refused⟩
    · cases made

/-- A system of finite numbers is converted exactly if all of them fit. -/
theorem exists_exact_iff (finite : ∀ x, s.Mentions x → x.isFinite = true) :
    (∃ e, s.exact = .ok e) ↔ ∀ x, s.Mentions x → Fraction.Fits x := by
  constructor
  · rintro ⟨e, converted⟩ x mentioned
    obtain ⟨coefficients, constants⟩ := exact_eq_ok_iff.1 converted
    by_contra great
    have refused := Fraction.ofFloat_eq_error_iff.2 ⟨rfl, fun _ => great⟩
    obtain ⟨i, j, rfl⟩ | ⟨i, rfl⟩ := mentioned
    · rw [coefficients i j] at refused
      cases refused
    · rw [constants i] at refused
      cases refused
  · intro fits
    cases converted : s.exact with
    | ok e => exact ⟨e, rfl⟩
    | error cause =>
      obtain ⟨x, mentioned, great, -⟩ := exact_eq_error converted
      exact absurd (fits x mentioned) (great (finite x mentioned))

end System

/-! ## Systems that are converted -/

/-- The methods that compute with fractions. -/
inductive Method.IsDirect : Method → Prop where
  | cramer : IsDirect .cramer
  | gaussian : IsDirect .gaussian

/-- The error by which a direct method tells that there is no unique solution. -/
inductive Method.Refuses : Method → Error → Prop where
  | singular (determinant : Fraction) : Refuses .cramer (.singular determinant)
  | zeroPivot (column : ℕ) : Refuses .gaussian (.zeroPivot column)

variable {method : Method}

/-- A direct method has solved a system or found that there is no unique solution. -/
inductive Decides (method : Method) (outcome : Outcome) (error? : Option Error) : Prop where
  | solved (converged : outcome = .converged) (noError : error? = none)
  | refused {cause : Error} (failed : outcome = .failed) (error : error? = some cause)
      (refuses : method.Refuses cause)

theorem not_decides_of_fraction {outcome : Outcome} {cause : Fraction.Error} :
    ¬ Decides method outcome (some (.fraction cause)) := by
  rintro (⟨-, noError⟩ | ⟨-, same, refuses⟩)
  · cases noError
  · cases same
    cases refuses

theorem Report.decides_of_ok {r : Report method.Value} {values : List method.Value}
    (result : r.result = .ok { values, converged := true }) :
    Decides method r.outcome r.error? :=
  .solved (by rw [outcome, result]; rfl) (by rw [error?, result])

theorem Report.decides_of_refuses {r : Report method.Value} {cause : Error}
    (result : r.result = .error cause) (refuses : method.Refuses cause) :
    Decides method r.outcome r.error? :=
  .refused (by rw [outcome, result]) (by rw [error?, result]) refuses

section

variable {rows : List (List Float)} {constants : List Float} {s : System Float rows.length}
  {settings : Settings}

theorem result_of_conversion_error (direct : method.IsDirect) {cause : Error}
    (checked : System.check method.required rows constants = .ok s)
    (failed : s.exact = .error cause) :
    (method.report settings rows constants).result = .error cause := by
  cases direct with
  | cramer =>
    have ending : (cramerTrail settings s).ending = .error cause :=
      Trail.ending_bind_of_error _ failed
    rw [result_of_check_cramer checked, ending]
    rfl
  | gaussian =>
    have ending : (gaussianTrail settings s).ending = .error cause :=
      Trail.ending_bind_of_error _ failed
    rw [result_of_check_gaussian checked, ending]
    rfl

/-- Nothing but the conversion fails for other reasons than that a solution is missing. -/
theorem decides_of_exact (direct : method.IsDirect) (sound : settings.Sound)
    (checked : System.check method.required rows constants = .ok s)
    {e : System Fraction rows.length} (converted : s.exact = .ok e) :
    let r := method.report settings rows constants
    Decides method r.outcome r.error? := by
  have holds : e.Holds e.matrix e.vector := ⟨rfl, fun _ _ => rfl, fun _ => rfl⟩
  cases direct with
  | cramer =>
    have tolerance : isTolerance settings.tolerance = true :=
      isTolerance_iff.2 ⟨sound.tolerance_isFinite, sound.tolerance_pos⟩
    have result := @result_of_check_cramer _ _ _ settings checked
    obtain ⟨det, value, ending⟩ := cramerTrail_ending settings converted holds
    rw [ending] at result
    cases below : isSingular settings det with
    | true =>
      rw [below, if_pos rfl] at result
      exact Report.decides_of_refuses result (.singular det)
    | false =>
      have regular : e.matrix.det ≠ 0 := by
        intro zero
        rw [isSingular_of_value_eq_zero tolerance (value.trans zero)] at below
        cases below
      obtain ⟨found, steps, -⟩ := cramerSteps_of_det_ne_zero holds value regular
      rw [below, if_neg Bool.false_ne_true, steps] at result
      exact Report.decides_of_ok result
  | gaussian =>
    have result := @result_of_check_gaussian _ _ _ settings checked
    by_cases singular : e.matrix.det = 0
    · obtain ⟨column, ending⟩ := gaussianTrail_of_det_eq_zero settings converted holds singular
      rw [ending] at result
      exact Report.decides_of_refuses result (.zeroPivot column)
    · obtain ⟨found, ending, -⟩ := gaussianTrail_of_det_ne_zero settings converted holds singular
      rw [ending] at result
      exact Report.decides_of_ok result

/-- Which systems of finite numbers are decided. -/
theorem decides_report_iff (direct : method.IsDirect) (sound : settings.Sound)
    (checked : System.check method.required rows constants = .ok s)
    (finite : ∀ x, s.Mentions x → x.isFinite = true) :
    let r := method.report settings rows constants
    (Decides method r.outcome r.error? ↔ ∀ x, s.Mentions x → Fraction.Fits x) ∧
      (¬ Decides method r.outcome r.error? → r.outcome = .failed ∧
        ∃ x, s.Mentions x ∧ ¬ Fraction.Fits x ∧ r.error? = some (.fraction (.notFinite x))) := by
  rw [← System.exists_exact_iff finite]
  cases converted : s.exact with
  | ok e =>
    have decides := decides_of_exact direct sound checked converted
    exact ⟨iff_of_true decides ⟨e, rfl⟩, fun undecided => absurd decides undecided⟩
  | error cause =>
    obtain ⟨x, mentioned, great, rfl⟩ := System.exact_eq_error converted
    have result := @result_of_conversion_error _ _ _ _ settings direct _ checked converted
    have error : (method.report settings rows constants).error? =
        some (.fraction (.notFinite x)) := by
      rw [Report.error?, result]
    refine ⟨iff_of_false ?_ (by simp), fun _ => ⟨by rw [Report.outcome, result], x, mentioned,
      great (finite x mentioned), error⟩⟩
    rw [error]
    exact not_decides_of_fraction

end

/-! ## Solvers -/

theorem Engine.Sound.decides_solve_iff {e : Engine method} (sound : e.Sound)
    (direct : method.IsDirect) {n : ℕ} {a : Matrix (Fin n) (Fin n) Float} {b : Fin n → Float}
    (enough : method.required ≤ n)
    (finite : ∀ x, (System.ofMatrix a b).Mentions x → x.isFinite = true)
    {tolerance? : Option Float} (accepted : tolerance?.all isTolerance = true) :
    let r := e.solve (listed a) (List.ofFn b) tolerance?
    (Decides method r.1 r.2.error? ↔ ∀ x, (System.ofMatrix a b).Mentions x → Fraction.Fits x) ∧
      (¬ Decides method r.1 r.2.error? → r.1 = .failed ∧
        ∃ x, (System.ofMatrix a b).Mentions x ∧ ¬ Fraction.Fits x ∧
          r.2.error? = some (.fraction (.notFinite x))) := by
  have fresh : (e.opened tolerance?).Sound := sound.opened accepted
  have nonempty : 0 < n := by
    cases direct with
    | cramer => exact Nat.lt_of_lt_of_le Nat.zero_lt_two enough
    | gaussian => exact enough
  obtain ⟨s, checked, mentions⟩ := System.exists_check_listed nonempty enough finite
  simp only [← mentions] at finite ⊢
  rw [solve_of_all_accepted accepted]
  dsimp only
  rw [fresh.setup_eq]
  exact decides_report_iff direct fresh.settings checked finite

/-- Whatever a solver has been through, a direct method fails on a system of finite numbers for want
of a unique solution only, provided that all numbers fit. A number that does not is refused by the
conversion as if it were not finite. -/
theorem refused_by_conversion_iff {method : Method} {n : ℕ} (a : Matrix (Fin n) (Fin n) Float)
    (b : Fin n → Float) (choices : List Settings.Call) (calls : List Engine.Call)
    (tolerance? : Option Float) (direct : method.IsDirect) (enough : method.required ≤ n)
    (finite : ∀ x, (System.ofMatrix a b).Mentions x → x.isFinite = true)
    (accepted : tolerance?.all isTolerance = true) :
    let e : Engine method := .after (.make (({} : Settings).after choices)) calls
    let r := e.solve (listed a) (List.ofFn b) tolerance?
    (∀ x cause, Fraction.ofFloat x = .error cause ↔
      cause = .notFinite x ∧ (x.isFinite = true → ¬ Fraction.Fits x)) ∧
    (Decides method r.1 r.2.error? ↔ ∀ x, (System.ofMatrix a b).Mentions x → Fraction.Fits x) ∧
    (¬ Decides method r.1 r.2.error? → r.1 = .failed ∧
      ∃ x, (System.ofMatrix a b).Mentions x ∧ ¬ Fraction.Fits x ∧
        r.2.error? = some (.fraction (.notFinite x))) := by
  have sound := @Engine.sound_after method _ (Settings.sound_default.after choices) calls
  exact ⟨fun x cause => Fraction.ofFloat_eq_error_iff,
    sound.decides_solve_iff direct enough finite accepted⟩

theorem refused_by_conversion_two_by_two :
    let a : Matrix (Fin 2) (Fin 2) Float := !![2.0, 1.0; 1.0, 1e304]
    let b : Fin 2 → Float := ![3.0, 5.0]
    let e : Engine .cramer := .after (.make (({} : Settings).after [])) [.setTolerance 0.5]
    let r := e.solve (listed a) (List.ofFn b) (some 0.25)
    Method.IsDirect .cramer ∧ Method.required .cramer ≤ 2 ∧
      (∀ x, (System.ofMatrix a b).Mentions x → x.isFinite = true) ∧
      (some 0.25).all isTolerance = true ∧
      (Decides .cramer r.1 r.2.error? ↔ ∀ x, (System.ofMatrix a b).Mentions x → Fraction.Fits x) ∧
      (¬ Decides .cramer r.1 r.2.error? → r.1 = .failed ∧
        ∃ x, (System.ofMatrix a b).Mentions x ∧ ¬ Fraction.Fits x ∧
          r.2.error? = some (.fraction (.notFinite x))) := by
  intro a b e r
  have finite : ∀ x, (System.ofMatrix a b).Mentions x → x.isFinite = true := by
    intro x mentioned
    obtain ⟨i, j, rfl⟩ | ⟨i, rfl⟩ := System.mentions_ofMatrix.1 mentioned
    · fin_cases i <;> fin_cases j <;> decide +kernel
    · fin_cases i <;> decide +kernel
  have accepted : (some 0.25).all isTolerance = true := by decide +kernel
  exact ⟨.cramer, le_rfl, finite, accepted,
    (refused_by_conversion_iff a b [] [.setTolerance 0.5] (some 0.25) .cramer le_rfl finite
      accepted).2⟩

/-- A coefficient that is finite and too great for the conversion. -/
theorem solve_great_coefficient :
    let a : Matrix (Fin 1) (Fin 1) Float := !![1e304]
    let b : Fin 1 → Float := ![1.0]
    let r := (Engine.make {} : Engine .gaussian).solve (listed a) (List.ofFn b) none
    (∀ x, (System.ofMatrix a b).Mentions x → x.isFinite = true) ∧
      Fraction.ofFloat 1e304 = .error (.notFinite 1e304) ∧
      r.1 = .failed ∧ r.2.error? = some (.fraction (.notFinite 1e304)) := by
  intro a b r
  have mentioned {x : Float} : (System.ofMatrix a b).Mentions x ↔ x = 1e304 ∨ x = 1.0 := by
    rw [System.mentions_ofMatrix]
    simp [a, b, eq_comm]
  have great : ¬ Fraction.Fits 1e304 := by
    intro fits
    have finite : (1e304 : Float).isFinite = true := by decide +kernel
    have scaled := Fraction.isFinite_scaled_iff.2 ⟨finite, fits⟩
    revert scaled
    decide +kernel
  have small : Fraction.Fits 1.0 := (Fraction.isFinite_scaled_iff.1 (by decide +kernel)).2
  have finite : ∀ x, (System.ofMatrix a b).Mentions x → x.isFinite = true := by
    intro x inside
    obtain rfl | rfl := mentioned.1 inside <;> decide +kernel
  have sound : (Engine.make {} : Engine .gaussian).Sound := ⟨Settings.sound_default, rfl⟩
  obtain ⟨decides, otherwise⟩ := sound.decides_solve_iff .gaussian le_rfl finite
    (rfl : Option.all isTolerance none = true)
  obtain ⟨failed, x, inside, large, error⟩ := otherwise fun decided =>
    great (decides.1 decided 1e304 (mentioned.2 (.inl rfl)))
  have refused := Fraction.ofFloat_eq_error_iff.2 ⟨rfl, fun _ => great⟩
  obtain rfl | rfl := mentioned.1 inside
  · exact ⟨finite, refused, failed, error⟩
  · exact absurd small large

/-- The coefficient is finite and not zero, but the conversion takes it for one that is not
finite. -/
theorem not_decides_great_coefficient :
    let a : Matrix (Fin 1) (Fin 1) Float := !![1e304]
    let b : Fin 1 → Float := ![1.0]
    let r := (Engine.make {} : Engine .gaussian).solve (listed a) (List.ofFn b) none
    (∀ x, (System.ofMatrix a b).Mentions x → x.isFinite = true) ∧
      Fraction.ofFloat 1e304 = .error (.notFinite 1e304) ∧
      r.1 = .failed ∧ r.2.error? = some (.fraction (.notFinite 1e304)) ∧
      ¬ Decides .gaussian r.1 r.2.error? := by
  obtain ⟨finite, refused, failed, error⟩ := solve_great_coefficient
  dsimp only at failed error ⊢
  refine ⟨finite, refused, failed, error, ?_⟩
  rw [error]
  exact not_decides_of_fraction

end Stepwise.Linear
