import Mathlib.LinearAlgebra.Matrix.Adjugate
import Mathlib.LinearAlgebra.Matrix.Determinant.Basic
import Stepwise.Linear.Determinant
import Stepwise.Proofs.Linear.Matrix

/-!
# Determinants and Cramer's rule

- `value_determinant`: the expansion along the first row computes the determinant
- `matrix_replaceColumn`: the tables whose determinants give the unknowns
- `cramerSteps_ending`: the unknowns found are the quotients of two determinants each
- `mulVec_cramer_div`: these quotients solve the system
-/

namespace Stepwise.Linear

open Matrix

variable {n : ℕ}

/-! ## Expansion along the first row -/

theorem entry_minor (t : Table Fraction (n + 1) (n + 1)) (column : Fin (n + 1)) (i j : Fin n) :
    (minor t column).entry i j = t.entry i.succ (column.succAbove j) := by
  have row : (minor t column)[i.val] = t[i.val + 1].eraseIdx column.val := by
    simp [minor, Nat.add_comm 1]
  rw [Table.entry_eq_getElem, row, Table.entry_eq_getElem, Vector.getElem_eraseIdx]
  split
  next before => simp [Fin.succAbove_of_castSucc_lt column j before]
  next notBefore => simp [Fin.succAbove_of_le_castSucc column j (not_lt.1 notBefore)]

theorem matrix_minor (t : Table Fraction (n + 1) (n + 1)) (column : Fin (n + 1)) :
    (minor t column).matrix = t.matrix.submatrix Fin.succ column.succAbove := by
  ext i j
  rw [Table.matrix_apply, entry_minor]
  rfl

/-- An alternating sum of products, the terms with a zero factor left out. -/
theorem value_foldl_expand (entry cofactor : Fin n → Fraction) (columns : List (Fin n))
    (start : Fraction) :
    (columns.foldl (fun sum column =>
      if (entry column).isZero then sum
      else if column.val % 2 = 0 then sum + entry column * cofactor column
      else sum - entry column * cofactor column) start).value =
      start.value + (columns.map fun column =>
        (-1) ^ column.val * (entry column).value * (cofactor column).value).sum := by
  induction columns generalizing start with
  | nil => simp
  | cons column columns ih =>
    rw [List.foldl_cons, ih, List.map_cons, List.sum_cons, ← add_assoc]
    congr 1
    split
    next zero => rw [Fraction.isZero_iff.1 zero, mul_zero, zero_mul, add_zero]
    next =>
      -- The sign of the cofactor is that of the column's parity.
      rcases Nat.mod_two_eq_zero_or_one column.val with even | odd
      · rw [if_pos even, Fraction.value_add, Fraction.value_mul,
          (Nat.even_iff.2 even).neg_one_pow, one_mul]
      · rw [if_neg (by omega), Fraction.value_sub, Fraction.value_mul,
          (Nat.odd_iff.2 odd).neg_one_pow, neg_one_mul, neg_mul, sub_eq_add_neg]

/-- The expansion computes the determinant. -/
theorem value_determinant (t : Table Fraction n n) : (determinant t).value = t.matrix.det := by
  fun_induction determinant t with
  | case1 => simp
  | case2 t => exact (det_fin_one t.matrix).symm
  | case3 t =>
    rw [det_fin_two, Fraction.value_sub, Fraction.value_mul, Fraction.value_mul]
    rfl
  | case4 n t ih =>
    rw [value_foldl_expand, Fraction.value_zero, zero_add, det_succ_row_zero, Fin.sum_univ_def]
    simp only [ih, matrix_minor]
    rfl

/-! ## Columns replaced -/

theorem matrix_replaceColumn (s : System Fraction n) (column : Fin n) :
    (replaceColumn s.coefficients column s.constants).matrix =
      s.matrix.updateCol column s.vector := by
  ext i j
  rw [Table.matrix_apply, Table.entry_eq_getElem, replaceColumn, Vector.getElem_zipWith,
    Vector.getElem_set, updateCol_apply]
  by_cases same : j = column
  · rw [if_pos same, if_pos (congrArg Fin.val same.symm)]
    rfl
  · rw [if_neg same, if_neg fun equal => same (Fin.ext equal.symm)]
    rfl

/-! ## Cramer's rule -/

theorem exists_cramerStep (s : System Fraction n) {det : Fraction} (regular : det.value ≠ 0)
    (column : Fin n) :
    ∃ step, cramerStep s det column = .ok step ∧
      step.value.value = (s.matrix.updateCol column s.vector).det / det.value := by
  obtain ⟨value, division, quotient⟩ := Fraction.exists_divide
    (determinant (replaceColumn s.coefficients column s.constants)) regular
  rw [value_determinant, matrix_replaceColumn] at quotient
  refine ⟨{ column, replaced := replaceColumn s.coefficients column s.constants
            determinant := determinant (replaceColumn s.coefficients column s.constants), value },
    ?_, quotient⟩
  rw [cramerStep, division]
  rfl

theorem cramerSteps_ending (s : System Fraction n) {det : Fraction} (regular : det.value ≠ 0)
    (columns : List (Fin n)) :
    ∃ found, (cramerSteps s det columns).ending = .ok found ∧
      found.map Fraction.value = columns.map fun column =>
        (s.matrix.updateCol column s.vector).det / det.value := by
  induction columns with
  | nil => exact ⟨[], rfl, rfl⟩
  | cons column columns ih =>
    obtain ⟨step, taken, value⟩ := exists_cramerStep s regular column
    obtain ⟨found, ending, values⟩ := ih
    refine ⟨step.value :: found, ?_, ?_⟩
    · rw [cramerSteps, taken]
      exact Trail.ending_bind_of_ok _ ending
    · rw [List.map_cons, List.map_cons, value, values]

/-- Without a determinant to divide by, no unknown is found. -/
theorem cramerSteps_ending_of_zero (s : System Fraction n) {det : Fraction}
    (singular : det.value = 0) (column : Fin n) (columns : List (Fin n)) :
    (cramerSteps s det (column :: columns)).ending = .error (.fraction .divideByZero) := by
  rw [cramerSteps, cramerStep, Fraction.divide_of_eq_zero singular]
  rfl

theorem mulVec_cramer_div {A : Matrix (Fin n) (Fin n) ℚ} (regular : A.det ≠ 0) (v : Fin n → ℚ) :
    A *ᵥ (fun i => (A.updateCol i v).det / A.det) = v := by
  have quotients : (fun i => (A.updateCol i v).det / A.det) = A.det⁻¹ • Matrix.cramer A v := by
    ext i
    rw [Pi.smul_apply, smul_eq_mul, cramer_apply, div_eq_inv_mul]
  rw [quotients, mulVec_smul, mulVec_cramer, inv_smul_smul₀ regular]

end Stepwise.Linear
