import Mathlib.LinearAlgebra.Matrix.NonsingularInverse
import Stepwise.Proofs.Linear.DirectMethods
import Stepwise.Proofs.Linear.Engine

/-!
# The column that elimination fails in

Elimination fails in the first column that is a combination of the columns before it. Row operations
keep all relations between columns, so this is the same column of the matrix to start from, whatever
the constants and the order of the equations.

- `FirstDependent`: the first column that is a combination of those before it
- `firstDependent_mul_iff`: it is kept by invertible matrices
- `Reduced.firstDependent`: a treated matrix in which elimination is stuck shows it
- `zeroPivot_iff_firstDependent`: a zero pivot is reported in this column
-/

namespace Stepwise.Linear

open Matrix

variable {n : ℕ} {A : Matrix (Fin n) (Fin n) ℚ} {k l : Fin n}

/-! ## Columns -/

/-- The columns before one are linearly independent, and it is a linear combination of them. -/
structure FirstDependent (A : Matrix (Fin n) (Fin n) ℚ) (k : Fin n) : Prop where
  independent : LinearIndepOn ℚ A.col (Set.Iio k)
  dependent : A.col k ∈ Submodule.span ℚ (A.col '' Set.Iio k)

/-- With the columns before it, the column is not independent. -/
theorem FirstDependent.not_linearIndepOn (first : FirstDependent A k) {s : Set (Fin n)}
    (among : insert k (Set.Iio k) ⊆ s) : ¬ LinearIndepOn ℚ A.col s := fun independent =>
  (independent.mono among).notMem_span_of_insert (lt_irrefl k) first.dependent

theorem FirstDependent.le (first : FirstDependent A k) (second : FirstDependent A l) : l ≤ k := by
  by_contra! before
  refine first.not_linearIndepOn ?_ second.independent
  exact Set.insert_subset before (Set.Iio_subset_Iio before.le)

/-- There is at most one such column. -/
theorem FirstDependent.unique (first : FirstDependent A k) (second : FirstDependent A l) : k = l :=
  le_antisymm (second.le first) (first.le second)

theorem not_firstDependent_of_det_ne_zero (regular : A.det ≠ 0) : ¬ FirstDependent A k :=
  fun first => first.not_linearIndepOn (Set.subset_univ _)
    (linearIndependent_cols_of_det_ne_zero regular).linearIndepOn_univ

/-- An invertible matrix on the left keeps all relations between columns. -/
theorem firstDependent_mul_iff {p : Matrix (Fin n) (Fin n) ℚ} (unit : IsUnit p) :
    FirstDependent (p * A) k ↔ FirstDependent A k := by
  have injective : Function.Injective p.mulVecLin := mulVec_injective_of_isUnit unit
  have columns : (p * A).col = p.mulVecLin ∘ A.col := rfl
  have independent : LinearIndepOn ℚ (p * A).col (Set.Iio k) ↔
      LinearIndepOn ℚ A.col (Set.Iio k) := by
    rw [columns]
    exact p.mulVecLin.linearIndepOn_iff_of_injOn injective.injOn
  have dependent : (p * A).col k ∈ Submodule.span ℚ ((p * A).col '' Set.Iio k) ↔
      A.col k ∈ Submodule.span ℚ (A.col '' Set.Iio k) := by
    rw [columns, Set.image_comp, ← Submodule.map_span]
    exact injective.mem_set_image
  exact ⟨fun first => ⟨independent.1 first.independent, dependent.1 first.dependent⟩,
    fun first => ⟨independent.2 first.independent, dependent.2 first.dependent⟩⟩

theorem RowEquivalent.firstDependent_iff {m m' : Augmented n} (equivalent : RowEquivalent m m') :
    FirstDependent m'.square k ↔ FirstDependent m.square k := by
  obtain ⟨p, unit, square, -⟩ := equivalent.exists_mul
  rw [square]
  exact firstDependent_mul_iff unit

/-- The equations in another order are the product with a permutation matrix. -/
theorem firstDependent_submatrix_iff (order : Equiv.Perm (Fin n)) :
    FirstDependent (A.submatrix order id) k ↔ FirstDependent A k := by
  have permuted : A.submatrix order id = order.permMatrix ℚ * A :=
    (PEquiv.toMatrix_toPEquiv_mul order A).symm
  have unit : IsUnit (order.permMatrix ℚ) := by
    rw [isUnit_iff_isUnit_det, det_permutation]
    exact (Units.isUnit _).map (Int.castRingHom ℚ)
  rw [permuted]
  exact firstDependent_mul_iff unit

/-! ## Treated matrices -/

/-- The columns before one, and those of the identity from there on. -/
def completed (A : Matrix (Fin n) (Fin n) ℚ) (k : Fin n) : Matrix (Fin n) (Fin n) ℚ :=
  of fun i j => if j < k then A i j else (1 : Matrix (Fin n) (Fin n) ℚ) i j

theorem col_completed {j : Fin n} (before : j < k) : (completed A k).col j = A.col j := by
  ext i
  exact if_pos before

section

variable {m : Augmented n}

/-- With the columns of the identity, treated columns make a triangular matrix. -/
theorem Reduced.det_completed (reduced : Reduced k.val m) : (completed m.square k).det ≠ 0 := by
  have triangular : (completed m.square k).IsUpperTriangular := by
    intro i j low
    by_cases before : j < k
    · exact (if_pos before).trans (reduced.below j before i low)
    · exact (if_neg before).trans (one_apply_ne low.ne')
  rw [det_of_isUpperTriangular triangular]
  refine Finset.prod_ne_zero_iff.2 fun j _ => ?_
  by_cases before : j < k
  · exact (if_pos before).trans_ne (reduced.pivot j before)
  · exact (if_neg before).trans_ne ((one_apply_eq j).trans_ne one_ne_zero)

theorem Reduced.completed_apply_of_le (reduced : Reduced k.val m) {i : Fin n} (low : k ≤ i) :
    completed m.square k i = (1 : Matrix (Fin n) (Fin n) ℚ) i := by
  ext j
  by_cases before : j < k
  · rw [one_apply_ne (before.trans_le low).ne']
    exact (if_pos before).trans (reduced.below j before i (before.trans_le low))
  · exact if_neg before

/-- A column that is zero from the diagonal downward is a combination of the treated ones. -/
theorem Reduced.firstDependent (reduced : Reduced k.val m)
    (zeros : ∀ i, k ≤ i → m.square i k = 0) : FirstDependent m.square k := by
  have regular := reduced.det_completed
  have columns : ∀ j ∈ Set.Iio k, (completed m.square k).col j = m.square.col j :=
    fun j before => col_completed before
  refine ⟨?_, ?_⟩
  · have independent := (linearIndependent_cols_of_det_ne_zero regular).linearIndepOn (Set.Iio k)
    exact independent.congr columns
  · obtain ⟨x, solves⟩ := mulVec_surjective_iff_isUnit.2
      ((isUnit_iff_isUnit_det _).2 regular.isUnit) (m.square.col k)
    -- From the diagonal downward the equations say that the unknowns there are zero.
    have vanishes {j : Fin n} (low : k ≤ j) : x j = 0 := by
      have equation := congrFun solves j
      rw [mulVec, reduced.completed_apply_of_le low] at equation
      change ((1 : Matrix (Fin n) (Fin n) ℚ) *ᵥ x) j = _ at equation
      rw [one_mulVec] at equation
      exact equation.trans (zeros j low)
    rw [← solves, mulVec_eq_sum]
    refine Submodule.sum_mem _ fun j _ => ?_
    by_cases before : j < k
    · rw [op_smul_eq_smul]
      exact Submodule.smul_mem _ _ (Submodule.subset_span ⟨j, before, (col_completed before).symm⟩)
    · rw [vanishes (not_lt.1 before), MulOpposite.op_zero, zero_smul]
      exact Submodule.zero_mem _

end

/-! ## Elimination -/

/-- Elimination is stuck in the first dependent column, and comes to its end if there is none. -/
theorem eliminate_eq_zeroPivot_iff {m : Augmented n} {c : ℕ} :
    (eliminate (List.finRange n) m).ending = .error (.zeroPivot c) ↔
      ∃ k : Fin n, c = k.val + 1 ∧ FirstDependent m.square k := by
  obtain ⟨m', finished, equivalent, reduced⟩ | ⟨column, m', stuck, equivalent, reduced, zeros⟩ :=
    eliminate_ending (.zero m)
  · rw [List.drop_zero] at finished
    rw [finished]
    refine iff_of_false nofun ?_
    rintro ⟨k, -, first⟩
    exact not_firstDependent_of_det_ne_zero reduced.det_ne_zero (equivalent.firstDependent_iff.2 first)
  · rw [List.drop_zero] at stuck
    rw [stuck]
    have first := equivalent.firstDependent_iff.1 (reduced.firstDependent zeros)
    constructor
    · intro same
      cases same
      exact ⟨column, rfl, first⟩
    · rintro ⟨k, rfl, other⟩
      rw [other.unique first]

/-- So the method fails with a zero pivot in the first dependent column. -/
theorem gaussianTrail_eq_zeroPivot_iff (setup : Setup) {size c : ℕ} {s : System Float size}
    {e : System Fraction size} {v : Fin n → ℚ} (exact : s.exact = .ok e) (holds : e.Holds A v) :
    (gaussianTrail setup s).ending = .error (.zeroPivot c) ↔
      ∃ k : Fin n, c = k.val + 1 ∧ FirstDependent A k := by
  rcases eq_or_ne A.det 0 with singular | regular
  · obtain rfl := holds.size
    obtain ⟨rfl, rfl⟩ := holds.eq
    rw [← System.square_augmented] at singular ⊢
    obtain ⟨column, stuck⟩ := eliminate_of_det_eq_zero singular
    rw [gaussianTrail_of_stuck setup exact stuck, ← eliminate_eq_zeroPivot_iff, stuck,
      Except.error.injEq, Except.error.injEq]
  · obtain ⟨found, ending, -⟩ := gaussianTrail_of_det_ne_zero setup exact holds regular
    rw [ending]
    refine iff_of_false nofun ?_
    rintro ⟨k, -, first⟩
    exact not_firstDependent_of_det_ne_zero regular first

section

variable {a : Matrix (Fin n) (Fin n) Float} {b : Fin n → Float} {v : Fin n → ℚ}

theorem ExactImage.reordered (image : ExactImage a b A v) (order : Equiv.Perm (Fin n))
    {b' : Fin n → Float} {v' : Fin n → ℚ} (constants : ∀ i, Converts (b' i) (v' i)) :
    ExactImage (a.submatrix order id) b' (A.submatrix order id) v' :=
  ⟨fun i j => image.coefficients (order i) j, constants⟩

theorem solve_eq_zeroPivot_iff (image : ExactImage a b A v) (nonempty : 1 ≤ n)
    (e : Engine .gaussian) {tolerance? : Option Float}
    (accepted : tolerance?.all isTolerance = true) (c : ℕ) :
    let r := e.solve (listed a) (List.ofFn b) tolerance?
    r.1 = .failed ∧ r.2.error? = some (.zeroPivot c) ↔
      ∃ k : Fin n, c = k.val + 1 ∧ FirstDependent A k := by
  obtain ⟨s, x, checked, exact, holds⟩ := image.exists_exact nonempty nonempty
  rw [← gaussianTrail_eq_zeroPivot_iff (e.opened tolerance?).setup exact holds,
    Engine.solve_of_all_accepted accepted]
  change Report.outcome _ = _ ∧ Report.error? _ = _ ↔ _
  rw [Report.outcome, Report.error?, result_of_check_gaussian checked]
  cases (gaussianTrail (e.opened tolerance?).setup s).ending with
  | error cause => simp [Except.map]
  | ok values => simp [Except.map]

/-- The column that is reported to have no pivot is the first that is a combination of those before
it, whatever the constants and the order of the equations. -/
theorem zeroPivot_iff_firstDependent (image : ExactImage a b A v) (nonempty : 1 ≤ n)
    (e : Engine .gaussian) {tolerance? : Option Float}
    (accepted : tolerance?.all isTolerance = true) :
    let r := e.solve (listed a) (List.ofFn b) tolerance?
    (∀ c, r.1 = .failed ∧ r.2.error? = some (.zeroPivot c) ↔
      ∃ k : Fin n, c = k.val + 1 ∧ FirstDependent A k) ∧
    ∀ (order : Equiv.Perm (Fin n)) (b' : Fin n → Float) (v' : Fin n → ℚ),
      (∀ i, Converts (b' i) (v' i)) →
      let r' := e.solve (listed (a.submatrix order id)) (List.ofFn b') tolerance?
      ∀ c, r'.1 = .failed ∧ r'.2.error? = some (.zeroPivot c) ↔
        r.1 = .failed ∧ r.2.error? = some (.zeroPivot c) := by
  refine ⟨solve_eq_zeroPivot_iff image nonempty e accepted, ?_⟩
  intro order b' v' constants r' c
  have other := solve_eq_zeroPivot_iff (image.reordered order constants) nonempty e accepted c
  simp only [firstDependent_submatrix_iff] at other
  exact other.trans (solve_eq_zeroPivot_iff image nonempty e accepted c).symm

theorem exactImage_of_rank_one :
    ExactImage !![1.0, 2.0; 2.0, 4.0] ![3.0, 5.0] !![1, 2; 2, 4] ![3, 5] := by
  constructor
  · intro i j
    fin_cases i <;> fin_cases j
    · exact ⟨.ofInt 1, rfl, by simp⟩
    · exact ⟨.ofInt 2, rfl, by simp⟩
    · exact ⟨.ofInt 2, rfl, by simp⟩
    · exact ⟨.ofInt 4, rfl, by simp⟩
  · intro i
    fin_cases i
    · exact ⟨.ofInt 3, rfl, by simp⟩
    · exact ⟨.ofInt 5, rfl, by simp⟩

theorem firstDependent_of_rank_one :
    FirstDependent (!![1, 2; 2, 4] : Matrix (Fin 2) (Fin 2) ℚ) 1 := by
  have before : Set.Iio (1 : Fin 2) = {0} := by
    ext j
    fin_cases j <;> simp
  have double : (!![1, 2; 2, 4] : Matrix (Fin 2) (Fin 2) ℚ).col 1 =
      (2 : ℚ) • (!![1, 2; 2, 4] : Matrix (Fin 2) (Fin 2) ℚ).col 0 := by
    ext i
    fin_cases i <;> norm_num
  constructor
  · rw [before, linearIndepOn_singleton_iff]
    exact fun zero => one_ne_zero (congrFun zero 0)
  · rw [before, Set.image_singleton, double]
    exact Submodule.smul_mem _ _ (Submodule.mem_span_singleton_self _)

theorem zeroPivot_iff_firstDependent_two_by_two :
    let a : Matrix (Fin 2) (Fin 2) Float := !![1.0, 2.0; 2.0, 4.0]
    let e : Engine .gaussian := .make {}
    let r := e.solve (listed a) (List.ofFn ![3.0, 5.0]) none
    let r' := e.solve (listed (a.submatrix (Equiv.swap 0 1) id)) (List.ofFn ![1.0, 2.0]) none
    r.2.error? = some (.zeroPivot 2) ∧ r'.2.error? = some (.zeroPivot 2) := by
  intro a e r r'
  have constants (i : Fin 2) : Converts (![1.0, 2.0] i) (![1, 2] i) := by
    fin_cases i
    · exact ⟨.ofInt 1, rfl, by simp⟩
    · exact ⟨.ofInt 2, rfl, by simp⟩
  obtain ⟨names, anyOrder⟩ := zeroPivot_iff_firstDependent exactImage_of_rank_one (by decide) e
    (rfl : (none : Option Float).all isTolerance = true)
  have reported := (names 2).2 ⟨1, rfl, firstDependent_of_rank_one⟩
  exact ⟨reported.2, ((anyOrder (Equiv.swap 0 1) _ _ constants 2).2 reported).2⟩

end

end Stepwise.Linear
