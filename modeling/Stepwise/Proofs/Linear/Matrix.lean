import Mathlib.LinearAlgebra.Matrix.Swap
import Mathlib.LinearAlgebra.Matrix.Transvection
import Stepwise.Linear.Elimination
import Stepwise.Proofs.Fraction.Value

/-!
# Tables of fractions as matrices

- `Table.matrix`: the rational matrix that a table holds
- `System.matrix`, `System.vector`: the two sides of a system
- `Augmented.square`, `Augmented.right`: the same of an augmented matrix
- `RowEquivalent`: one augmented matrix comes from another by an invertible matrix on the left, as
  after any row operation; such matrices have the same solutions, and are singular together
-/

namespace Stepwise.Linear

open Matrix

variable {n rows columns : ℕ}

/-- The rational matrix that a table holds. -/
def Table.matrix (t : Table Fraction rows columns) : Matrix (Fin rows) (Fin columns) ℚ :=
  of fun i j => (t.entry i j).value

theorem Table.matrix_apply (t : Table Fraction rows columns) (i : Fin rows) (j : Fin columns) :
    t.matrix i j = (t.entry i j).value := rfl

/-- The coefficients of a system. -/
def System.matrix (s : System Fraction n) : Matrix (Fin n) (Fin n) ℚ := s.coefficients.matrix

/-- The constants of a system. -/
def System.vector (s : System Fraction n) : Fin n → ℚ := fun i => (s.constants.get i).value

namespace Augmented

/-- The coefficients of an augmented matrix. -/
def square (m : Augmented n) : Matrix (Fin n) (Fin n) ℚ := of fun i j => (m.coefficient i j).value

/-- The constants of an augmented matrix. -/
def right (m : Augmented n) : Fin n → ℚ := fun i => (m.constant i).value

theorem square_apply (m : Augmented n) (i j : Fin n) : m.square i j = m.matrix i j.castSucc := rfl

theorem right_apply (m : Augmented n) (i : Fin n) : m.right i = m.matrix i (Fin.last n) := rfl

/-- Whether the numbers satisfy all equations. -/
def Solves (m : Augmented n) (x : Fin n → ℚ) : Prop := m.square *ᵥ x = m.right

end Augmented

@[simp] theorem System.square_augmented (s : System Fraction n) :
    s.augmented.square = s.matrix := by
  ext i j
  simp [Augmented.square_apply, Table.matrix_apply, System.matrix, Table.entry_eq_getElem,
    System.augmented]

@[simp] theorem System.right_augmented (s : System Fraction n) :
    s.augmented.right = s.vector := by
  ext i
  change s.augmented.right i = s.constants[i.val].value
  simp [Augmented.right_apply, Table.matrix_apply, Table.entry_eq_getElem, System.augmented]

/-! ## Row operations -/

/-- One augmented matrix is an invertible matrix times another. -/
def RowEquivalent (m m' : Augmented n) : Prop :=
  ∃ p : Matrix (Fin n) (Fin n) ℚ, IsUnit p ∧ m'.matrix = p * m.matrix

namespace RowEquivalent

variable {m m' m'' : Augmented n}

theorem refl (m : Augmented n) : RowEquivalent m m := ⟨1, isUnit_one, (Matrix.one_mul _).symm⟩

theorem trans (first : RowEquivalent m m') (second : RowEquivalent m' m'') :
    RowEquivalent m m'' := by
  obtain ⟨p, unitP, hp⟩ := first
  obtain ⟨q, unitQ, hq⟩ := second
  refine ⟨q * p, unitQ.mul unitP, ?_⟩
  rw [hq, hp, Matrix.mul_assoc]

/-- The two sides are multiplied by the same matrix. -/
theorem exists_mul (equivalent : RowEquivalent m m') :
    ∃ p : Matrix (Fin n) (Fin n) ℚ,
      IsUnit p ∧ m'.square = p * m.square ∧ m'.right = p *ᵥ m.right := by
  obtain ⟨p, unit, equal⟩ := equivalent
  refine ⟨p, unit, ?_, ?_⟩
  · ext i j
    rw [Augmented.square_apply, equal]
    rfl
  · ext i
    rw [Augmented.right_apply, equal]
    rfl

theorem solves_iff (equivalent : RowEquivalent m m') (x : Fin n → ℚ) :
    m'.Solves x ↔ m.Solves x := by
  obtain ⟨p, unit, square, right⟩ := equivalent.exists_mul
  rw [Augmented.Solves, Augmented.Solves, square, right, ← mulVec_mulVec]
  exact (mulVec_injective_iff_isUnit.2 unit).eq_iff

theorem det_eq_zero_iff (equivalent : RowEquivalent m m') :
    m'.square.det = 0 ↔ m.square.det = 0 := by
  obtain ⟨p, unit, square, -⟩ := equivalent.exists_mul
  have nonzero : p.det ≠ 0 := ((isUnit_iff_isUnit_det p).1 unit).ne_zero
  rw [square, det_mul, mul_eq_zero, or_iff_right nonzero]

end RowEquivalent

namespace RowOperation

theorem matrix_swap (i j : Fin n) (m : Augmented n) :
    ((swap i j).apply m).matrix = Matrix.swap ℚ i j * m.matrix := by
  ext r c
  rw [Table.matrix_apply, Table.entry_eq_getElem, apply, Vector.getElem_swap]
  by_cases first : r = i
  · subst first
    rw [if_pos rfl, swap_mul_apply_left]
    rfl
  · by_cases second : r = j
    · subst second
      rw [if_neg (by simpa [Fin.ext_iff] using first), if_pos rfl, swap_mul_apply_right]
      rfl
    · rw [if_neg (by simpa [Fin.ext_iff] using first), if_neg (by simpa [Fin.ext_iff] using second),
        swap_mul_of_ne first second]
      rfl

theorem matrix_subtract {target source : Fin n} (factor : Fraction) (m : Augmented n) :
    ((subtract target source factor).apply m).matrix =
      transvection target source (-factor.value) * m.matrix := by
  ext r c
  rw [Table.matrix_apply, Table.entry_eq_getElem, apply, Vector.getElem_set]
  by_cases same : r = target
  · subst same
    rw [if_pos rfl, transvection_mul_apply_same, Vector.getElem_zipWith, Fraction.value_sub,
      Fraction.value_mul, neg_mul, ← sub_eq_add_neg]
    rfl
  · rw [if_neg (fun equal => same (Fin.ext equal).symm), transvection_mul_apply_of_ne _ _ _ _ same]
    rfl

/-- No row operation adds or loses a solution, provided that a row is not taken from itself. -/
theorem rowEquivalent_swap (i j : Fin n) (m : Augmented n) :
    RowEquivalent m ((swap i j).apply m) :=
  ⟨_, IsUnit.of_mul_eq_one _ (swap_mul_self i j), matrix_swap i j m⟩

theorem rowEquivalent_subtract {target source : Fin n} (distinct : target ≠ source)
    (factor : Fraction) (m : Augmented n) :
    RowEquivalent m ((subtract target source factor).apply m) := by
  refine ⟨_, ?_, matrix_subtract factor m⟩
  rw [isUnit_iff_isUnit_det, det_transvection_of_ne _ _ distinct]
  exact isUnit_one

end RowOperation

end Stepwise.Linear
