import Mathlib.LinearAlgebra.Matrix.Block
import Stepwise.Proofs.Linear.Matrix

/-!
# What elimination leads to

The invariant of elimination is `Reduced k`: in each of the first `k` columns the entry on the
diagonal is not zero, and all entries below it are. A column either extends the invariant or has
nothing but zeros from the diagonal downward, and then the matrix is singular.

- `pivotRow_le`, `abs_le_pivotRow`: the row that is chosen as the pivot
- `clearColumn_ending`, `eliminateColumn_ending`: one column
- `eliminate_of_det_ne_zero`, `eliminate_of_det_eq_zero`: all columns
-/

namespace Stepwise.Linear

open Matrix

variable {n : ℕ}

/-! ## Entries after a row operation -/

theorem square_swap (i j : Fin n) (m : Augmented n) (r c : Fin n) :
    ((RowOperation.swap i j).apply m).square r c = m.square (Equiv.swap i j r) c := by
  rw [Augmented.square_apply, RowOperation.matrix_swap, Matrix.swap, Equiv.Perm.permMatrix,
    PEquiv.toMatrix_toPEquiv_mul]
  rfl

theorem square_subtract_target (target source : Fin n) (factor : Fraction) (m : Augmented n)
    (c : Fin n) :
    ((RowOperation.subtract target source factor).apply m).square target c =
      m.square target c - factor.value * m.square source c := by
  rw [Augmented.square_apply, RowOperation.matrix_subtract, transvection_mul_apply_same, neg_mul,
    ← sub_eq_add_neg]
  rfl

theorem square_subtract_of_ne {target r : Fin n} (other : r ≠ target) (source : Fin n)
    (factor : Fraction) (m : Augmented n) (c : Fin n) :
    ((RowOperation.subtract target source factor).apply m).square r c = m.square r c := by
  rw [Augmented.square_apply, RowOperation.matrix_subtract,
    transvection_mul_apply_of_ne _ _ _ _ other]
  rfl

/-! ## The pivot -/

/-- Keeping the better of two finds a best one. -/
theorem foldl_better (size : Fin n → Fraction) (candidates : List (Fin n)) (start : Fin n) :
    let best := candidates.foldl
      (fun best i => if (compare (size best) (size i)).isLT then i else best) start
    best ∈ start :: candidates ∧
      ∀ i ∈ start :: candidates, (size i).value ≤ (size best).value := by
  induction candidates generalizing start with
  | nil => simp
  | cons next candidates ih =>
    simp only [List.foldl_cons, Fraction.compare_eq, Ordering.isLT_iff_eq_lt, compare_lt_iff_lt]
      at ih ⊢
    split
    next less =>
      obtain ⟨member, greatest⟩ := ih next
      refine ⟨List.mem_cons_of_mem _ member, ?_⟩
      intro i among
      rcases List.mem_cons.1 among with rfl | among
      · exact less.le.trans (greatest next List.mem_cons_self)
      · exact greatest i among
    next notLess =>
      obtain ⟨member, greatest⟩ := ih start
      refine ⟨?_, ?_⟩
      · rcases List.mem_cons.1 member with same | later
        · rw [same]
          exact List.mem_cons_self
        · exact List.mem_cons_of_mem _ (List.mem_cons_of_mem _ later)
      · intro i among
        rcases List.mem_cons.1 among with rfl | among
        · exact greatest i List.mem_cons_self
        · rcases List.mem_cons.1 among with rfl | among
          · exact (not_lt.1 notLess).trans (greatest start List.mem_cons_self)
          · exact greatest i (List.mem_cons_of_mem _ among)

theorem pivotRow_le (m : Augmented n) (column : Fin n) : column ≤ pivotRow m column := by
  have member := (foldl_better (fun i => (m.coefficient i column).abs) (after column) column).1
  rcases List.mem_cons.1 member with same | later
  · exact same.ge
  · exact (mem_after.1 later).le

theorem abs_le_pivotRow (m : Augmented n) {column i : Fin n} (low : column ≤ i) :
    |m.square i column| ≤ |m.square (pivotRow m column) column| := by
  have greatest := (foldl_better (fun i => (m.coefficient i column).abs) (after column) column).2
  simp only [Fraction.value_abs] at greatest
  refine greatest i ?_
  rcases low.eq_or_lt with rfl | later
  · exact List.mem_cons_self
  · exact List.mem_cons_of_mem _ (mem_after.2 later)

/-! ## Clearing a column -/

/-- What clearing a column in some rows does to a matrix. A column with a zero in the row of the
pivot is left as it is. -/
structure Cleared (column : Fin n) (rows : List (Fin n)) (m m' : Augmented n) : Prop where
  equivalent : RowEquivalent m m'
  untouched : ∀ i ∉ rows, ∀ j, m'.square i j = m.square i j
  zero : ∀ i ∈ rows, m'.square i column = 0
  kept : ∀ j, m.square column j = 0 → ∀ i, m'.square i j = m.square i j

theorem clearColumn_ending {column : Fin n} (rows : List (Fin n)) (m : Augmented n)
    (pivot : m.square column column ≠ 0) (apart : column ∉ rows) :
    ∃ m', (clearColumn column rows m).ending = .ok m' ∧ Cleared column rows m m' := by
  induction rows generalizing m with
  | nil => exact ⟨m, rfl, .refl m, by simp, by simp, by simp⟩
  | cons row rows ih =>
    obtain ⟨distinct, apart⟩ := not_or.1 (mt List.mem_cons.2 apart)
    obtain ⟨factor, division, quotient⟩ := Fraction.exists_divide (m.coefficient row column) pivot
    let next := (RowOperation.subtract row column factor).apply m
    -- The row of the pivot is not among the rows, so the pivot is still there for the next one.
    have pivotKept (j : Fin n) : next.square column j = m.square column j :=
      square_subtract_of_ne distinct _ _ _ _
    obtain ⟨m', ending, cleared⟩ := ih next (by rwa [pivotKept]) apart
    refine ⟨m', ?_, ?_⟩
    · rw [clearColumn, division]
      exact ending
    have rowZero : next.square row column = 0 := by
      rw [square_subtract_target, quotient]
      exact sub_eq_zero.2 (div_mul_cancel₀ _ pivot).symm
    refine ⟨(RowOperation.rowEquivalent_subtract (Ne.symm distinct) factor m).trans
      cleared.equivalent, ?_, ?_, ?_⟩
    · intro i outside j
      obtain ⟨other, outside⟩ := not_or.1 (mt List.mem_cons.2 outside)
      rw [cleared.untouched i outside, square_subtract_of_ne other]
    · intro i inside
      by_cases later : i ∈ rows
      · exact cleared.zero i later
      · obtain rfl := (List.mem_cons.1 inside).resolve_right later
        rw [cleared.untouched i later, rowZero]
    · intro j zero i
      rw [cleared.kept j (by rw [pivotKept, zero])]
      by_cases same : i = row
      · rw [same, square_subtract_target, zero, mul_zero, sub_zero]
      · exact square_subtract_of_ne same _ _ _ _

/-! ## One column -/

/-- The first `k` columns have been treated. -/
structure Reduced (k : ℕ) (m : Augmented n) : Prop where
  pivot : ∀ j : Fin n, j.val < k → m.square j j ≠ 0
  below : ∀ j : Fin n, j.val < k → ∀ i, j < i → m.square i j = 0

theorem Reduced.zero (m : Augmented n) : Reduced 0 m :=
  ⟨fun _ early => absurd early (Nat.not_lt_zero _), fun _ early => absurd early (Nat.not_lt_zero _)⟩

/-- Rows below the treated columns may change places. -/
theorem Reduced.swap {k : ℕ} {m : Augmented n} (reduced : Reduced k m) {i j : Fin n}
    (lowI : k ≤ i.val) (lowJ : k ≤ j.val) :
    Reduced k ((RowOperation.swap i j).apply m) := by
  refine ⟨?_, ?_⟩
  · intro c early
    rw [square_swap, Equiv.swap_apply_of_ne_of_ne (by omega) (by omega)]
    exact reduced.pivot c early
  · intro c early r low
    rw [square_swap]
    apply reduced.below c early
    -- Wherever the row comes from, it is below the treated columns.
    rcases eq_or_ne r i with rfl | notI
    · rw [Equiv.swap_apply_left]
      omega
    · rcases eq_or_ne r j with rfl | notJ
      · rw [Equiv.swap_apply_right]
        omega
      · rwa [Equiv.swap_apply_of_ne_of_ne notI notJ]

/-- Clearing the next column below its pivot extends the invariant. -/
theorem Reduced.succ {m m' : Augmented n} {column : Fin n} (reduced : Reduced column.val m)
    (pivot : m.square column column ≠ 0) (cleared : Cleared column (after column) m m') :
    Reduced (column.val + 1) m' := by
  have zeroLeft (j : Fin n) (early : j < column) : m.square column j = 0 :=
    reduced.below j early column early
  refine ⟨?_, ?_⟩
  · intro j early
    rcases (Nat.lt_succ_iff.1 early).lt_or_eq with earlier | same
    · rw [cleared.kept j (zeroLeft j earlier)]
      exact reduced.pivot j earlier
    · rw [Fin.ext same, cleared.untouched column (by simp [mem_after])]
      exact pivot
  · intro j early i low
    rcases (Nat.lt_succ_iff.1 early).lt_or_eq with earlier | same
    · rw [cleared.kept j (zeroLeft j earlier)]
      exact reduced.below j earlier i low
    · rw [Fin.ext same] at low ⊢
      exact cleared.zero i (mem_after.2 low)

/-- A pivot that is on the diagonal stays there. -/
theorem eliminateColumn_of_eq {m : Augmented n} {column : Fin n}
    (same : pivotRow m column = column) :
    eliminateColumn column m =
      if (m.coefficient column column).isZero then .fail (.zeroPivot (column.val + 1))
      else clearColumn column (after column) m := by
  rw [eliminateColumn, if_pos same]
  rfl

/-- The pivot is brought to the diagonal before the column is tested and cleared. -/
theorem exists_pivot_on_diagonal {m : Augmented n} {column : Fin n}
    (reduced : Reduced column.val m) :
    ∃ swapped, RowEquivalent m swapped ∧ Reduced column.val swapped ∧
      swapped.square column column = m.square (pivotRow m column) column ∧
      (eliminateColumn column m).ending =
        (if (swapped.coefficient column column).isZero then .fail (.zeroPivot (column.val + 1))
          else clearColumn column (after column) swapped).ending := by
  by_cases same : pivotRow m column = column
  · exact ⟨m, .refl m, reduced, by rw [same], by rw [eliminateColumn_of_eq same]⟩
  · refine ⟨_, RowOperation.rowEquivalent_swap _ _ m, reduced.swap le_rfl (pivotRow_le m column),
      by rw [square_swap, Equiv.swap_apply_left], ?_⟩
    rw [eliminateColumn, if_neg same]
    rfl

theorem eliminateColumn_ending {m : Augmented n} (column : Fin n)
    (reduced : Reduced column.val m) :
    (∃ m', (eliminateColumn column m).ending = .ok m' ∧ RowEquivalent m m' ∧
        Reduced (column.val + 1) m') ∨
      (eliminateColumn column m).ending = .error (.zeroPivot (column.val + 1)) ∧
        ∀ i, column ≤ i → m.square i column = 0 := by
  obtain ⟨swapped, equivalent, reducedSwapped, pivot, unfolded⟩ := exists_pivot_on_diagonal reduced
  rw [unfolded]
  by_cases zero : (swapped.coefficient column column).isZero
  · refine .inr ⟨by rw [if_pos zero, Trail.ending_fail], ?_⟩
    intro i low
    have pivotZero : swapped.square column column = 0 := Fraction.isZero_iff.1 zero
    -- The pivot is the largest entry from the diagonal downward.
    have bound := abs_le_pivotRow m low
    rw [← pivot, pivotZero, abs_zero] at bound
    exact abs_nonpos_iff.1 bound
  · have nonzero : swapped.square column column ≠ 0 := mt Fraction.isZero_iff.2 zero
    obtain ⟨m', ending, cleared⟩ :=
      clearColumn_ending (after column) swapped nonzero (by simp [mem_after])
    rw [if_neg zero]
    exact .inl ⟨m', ending, equivalent.trans cleared.equivalent,
      reducedSwapped.succ nonzero cleared⟩

/-! ## All columns -/

theorem drop_finRange {k : ℕ} (inside : k < n) :
    (List.finRange n).drop k = ⟨k, inside⟩ :: (List.finRange n).drop (k + 1) := by
  rw [List.drop_eq_getElem_cons (by simpa using inside), List.getElem_finRange]
  rfl

theorem eliminate_ending {k : ℕ} {m : Augmented n} (reduced : Reduced k m) :
    (∃ m', (eliminate ((List.finRange n).drop k) m).ending = .ok m' ∧ RowEquivalent m m' ∧
        Reduced n m') ∨
      ∃ (column : Fin n) (m' : Augmented n),
        (eliminate ((List.finRange n).drop k) m).ending = .error (.zeroPivot (column.val + 1)) ∧
          RowEquivalent m m' ∧ Reduced column.val m' ∧
          ∀ i, column ≤ i → m'.square i column = 0 := by
  -- The columns are dropped from the front one by one; what is left of them grows smaller.
  induction remaining : n - k generalizing k m with
  | zero =>
    refine .inl ⟨m, ?_, .refl m, ?_⟩
    · rw [List.drop_eq_nil_of_le (by simp; omega)]
      rfl
    · exact ⟨fun j _ => reduced.pivot j (by omega), fun j _ => reduced.below j (by omega)⟩
  | succ remaining ih =>
    have inside : k < n := by omega
    rw [drop_finRange inside]
    rcases eliminateColumn_ending ⟨k, inside⟩ reduced with
      ⟨next, ending, equivalent, reducedNext⟩ | ⟨ending, zeros⟩
    · rw [eliminate, Trail.ending_bind_of_ok _ ending]
      rcases ih reducedNext (by dsimp only; omega) with
        ⟨m', finished, later, complete⟩ | ⟨column, m', stopped, later, reached, zeros⟩
      · exact .inl ⟨m', finished, equivalent.trans later, complete⟩
      · exact .inr ⟨column, m', stopped, equivalent.trans later, reached, zeros⟩
    · rw [eliminate, Trail.ending_bind_of_error _ ending]
      exact .inr ⟨_, m, rfl, .refl m, reduced, zeros⟩

/-! ## Singular matrices -/

theorem Reduced.det_ne_zero {m : Augmented n} (reduced : Reduced n m) : m.square.det ≠ 0 := by
  have triangular : m.square.IsUpperTriangular := fun i j low => reduced.below j j.isLt i low
  rw [det_of_isUpperTriangular triangular]
  exact Finset.prod_ne_zero_iff.2 fun j _ => reduced.pivot j j.isLt

/-- With a column that is zero from the diagonal downward, the rows from there on have too few
columns to be independent. -/
theorem Reduced.det_eq_zero {m : Augmented n} {column : Fin n} (reduced : Reduced column.val m)
    (zeros : ∀ i, column ≤ i → m.square i column = 0) : m.square.det = 0 := by
  rw [twoBlockTriangular_det m.square (fun i => i < column)
    (fun i low j early => reduced.below j early i (by omega))]
  refine mul_eq_zero_of_right _ (det_eq_zero_of_column_eq_zero ⟨column, lt_irrefl _⟩ ?_)
  rintro ⟨i, low⟩
  exact zeros i (not_lt.1 low)

theorem eliminate_of_det_ne_zero {m : Augmented n} (regular : m.square.det ≠ 0) :
    ∃ m', (eliminate (List.finRange n) m).ending = .ok m' ∧ RowEquivalent m m' ∧ Reduced n m' := by
  rcases eliminate_ending (.zero m) with finished | ⟨column, m', -, equivalent, reduced, zeros⟩
  · exact finished
  · exact absurd (equivalent.det_eq_zero_iff.1 (reduced.det_eq_zero zeros)) regular

theorem eliminate_of_det_eq_zero {m : Augmented n} (singular : m.square.det = 0) :
    ∃ column, (eliminate (List.finRange n) m).ending = .error (.zeroPivot column) := by
  rcases eliminate_ending (.zero m) with ⟨m', -, equivalent, reduced⟩ | ⟨column, m', stopped, -⟩
  · exact absurd (equivalent.det_eq_zero_iff.2 singular) reduced.det_ne_zero
  · exact ⟨_, stopped⟩

end Stepwise.Linear
