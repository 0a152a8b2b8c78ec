import Mathlib.Data.Matrix.Basic
import Stepwise.Proofs.Linear.Elimination

/-!
# What elimination shows

Elimination leaves behind each row operation with the matrix that it leads to. In rational numbers:

- `Extended`, `Move`: matrices with a column of constants, and what may be done to their rows
- `Replays`: matrices shown one after another, each from the one before by the move shown with it,
  while the columns before that of the move are already cleared
- `Replays.solves_iff`: all of them have the same solutions
- `eliminate_replays`: elimination shows such matrices, whether it comes to the last column or not
-/

namespace Stepwise.Linear

variable {n : ℕ}

/-! ## Matrices and moves -/

/-- A matrix with the constants as a further column. -/
abbrev Extended (n : ℕ) := Matrix (Fin n) (Fin (n + 1)) ℚ

namespace Extended

/-- The two sides of a system in one matrix. -/
def ofSides (A : Matrix (Fin n) (Fin n) ℚ) (v : Fin n → ℚ) : Extended n :=
  fun i => Fin.snoc (A i) (v i)

/-- Whether the numbers satisfy all equations. -/
def Solves (M : Extended n) (x : Fin n → ℚ) : Prop :=
  ∀ i, ∑ j, M i j.castSucc * x j = M i (Fin.last n)

/-- In the columns before `k`, all entries below the diagonal are zero. -/
def Cleared (M : Extended n) (k : ℕ) : Prop :=
  ∀ j : Fin n, j.val < k → ∀ i, j < i → M i j.castSucc = 0

theorem solves_ofSides_iff {A : Matrix (Fin n) (Fin n) ℚ} {v x : Fin n → ℚ} :
    (ofSides A v).Solves x ↔ A.mulVec x = v := by
  simp [Solves, ofSides, funext_iff, Matrix.mulVec, dotProduct]

end Extended

/-- An operation on the rows of a matrix. -/
inductive Move (n : ℕ) where
  | swap (i j : Fin n)
  /-- Subtracts a multiple of one row from another. -/
  | subtract (target source : Fin n) (factor : ℚ)

namespace Move

/-- Carries a move out. -/
def apply : Move n → Extended n → Extended n
  | .swap i j, M => M.submatrix (Equiv.swap i j) id
  | .subtract target source factor, M => M.updateRow target (M target - factor • M source)

/-- The column in whose treatment a move is made: that of the diagonal in the row that gets the
pivot, or has it. -/
def column : Move n → Fin n
  | .swap i _ => i
  | .subtract _ source _ => source

/-- No row is taken from itself. -/
def Proper : Move n → Prop
  | .swap _ _ => True
  | .subtract target source _ => target ≠ source

/-- A proper move adds no solution and loses none. -/
theorem solves_apply_iff {move : Move n} (proper : move.Proper) {M : Extended n} {x : Fin n → ℚ} :
    (move.apply M).Solves x ↔ M.Solves x := by
  cases move with
  | swap i j =>
    exact (Equiv.swap i j).forall_congr_right
      (q := fun i => ∑ j, M i j.castSucc * x j = M i (Fin.last n))
  | subtract target source factor =>
    have row : ∑ j : Fin n, (M target - factor • M source) j.castSucc * x j =
        ∑ j : Fin n, M target j.castSucc * x j -
          factor * ∑ j : Fin n, M source j.castSucc * x j := by
      rw [Finset.mul_sum, ← Finset.sum_sub_distrib]
      exact Finset.sum_congr rfl fun j _ => by simp [sub_mul, mul_assoc]
    simp only [Extended.Solves, apply]
    constructor
    · intro solves i
      have atSource := solves source
      rw [Matrix.updateRow_ne (Ne.symm proper)] at atSource
      by_cases same : i = target
      · subst same
        have atTarget := solves i
        rw [Matrix.updateRow_self, row, atSource] at atTarget
        simpa using atTarget
      · have other := solves i
        rwa [Matrix.updateRow_ne same] at other
    · intro solves i
      by_cases same : i = target
      · subst same
        rw [Matrix.updateRow_self, row, solves, solves]
        simp
      · rw [Matrix.updateRow_ne same]
        exact solves i

end Move

/-! ## Matrices in a row -/

/-- A move and the matrix shown with it. -/
structure Shown (n : ℕ) where
  move : Move n
  matrix : Extended n

/-- The matrices shown after the first, up to the last. Each comes from the one before by its
move. -/
inductive Replays : Extended n → List (Shown n) → Extended n → Prop where
  | nil {M : Extended n} : Replays M [] M
  | cons {M last : Extended n} {move : Move n} {later : List (Shown n)} (proper : move.Proper)
    (cleared : M.Cleared move.column) (replays : Replays (move.apply M) later last) :
    Replays M (⟨move, move.apply M⟩ :: later) last

namespace Replays

variable {M M' M'' : Extended n} {shown later : List (Shown n)}

theorem append (first : Replays M shown M') (second : Replays M' later M'') :
    Replays M (shown ++ later) M'' := by
  induction first with
  | nil => exact second
  | cons proper cleared _ ih => exact .cons proper cleared (ih second)

theorem solves_iff (replays : Replays M shown M') :
    ∀ s ∈ shown, ∀ x, s.matrix.Solves x ↔ M.Solves x := by
  induction replays with
  | nil => exact List.forall_mem_nil _
  | cons proper _ _ ih =>
    refine List.forall_mem_cons.2 ⟨fun x => Move.solves_apply_iff proper, fun s mem x => ?_⟩
    exact (ih s mem x).trans (Move.solves_apply_iff proper)

/-- The last matrix is shown last. -/
theorem getLast (replays : Replays M shown M') :
    (M :: shown.map Shown.matrix).getLast (List.cons_ne_nil _ _) = M' := by
  induction replays with
  | nil => rfl
  | cons _ _ _ ih => rwa [List.map_cons, List.getLast_cons_cons]

end Replays

/-! ## Elimination -/

/-- A row operation on fractions is a move on their values. -/
def RowOperation.move : RowOperation n → Move n
  | .swap i j => .swap i j
  | .subtract target source factor => .subtract target source factor.value

theorem RowOperation.matrix_apply (operation : RowOperation n) (m : Augmented n) :
    (operation.apply m).matrix = operation.move.apply m.matrix := by
  cases operation with
  | swap i j =>
    rw [matrix_swap, Matrix.swap, Equiv.Perm.permMatrix, PEquiv.toMatrix_toPEquiv_mul]
    rfl
  | subtract target source factor =>
    rw [matrix_subtract]
    ext i j
    by_cases same : i = target
    · subst same
      simp [move, Move.apply, sub_eq_add_neg]
    · simp [move, Move.apply, same]

/-- A snapshot in rational numbers. -/
def Snapshot.shown (s : Snapshot n) : Shown n := ⟨s.operation.move, s.matrix.matrix⟩

theorem Reduced.cleared {k : ℕ} {m : Augmented n} (reduced : Reduced k m) :
    Extended.Cleared m.matrix k :=
  reduced.below

variable {m : Augmented n} {column : Fin n}

theorem replays_perform (operation : RowOperation n) (proper : operation.move.Proper)
    (reduced : Reduced operation.move.column m) :
    Replays m.matrix ((perform operation m).entries.map Snapshot.shown)
      (operation.apply m).matrix := by
  change Replays _ [⟨operation.move, (operation.apply m).matrix⟩] _
  rw [operation.matrix_apply]
  exact .cons proper reduced.cleared .nil

/-- Subtracting the row of the pivot further down leaves the treated columns alone. -/
theorem Reduced.subtract (reduced : Reduced column.val m) {row : Fin n} (low : column < row)
    (factor : Fraction) :
    Reduced column.val ((RowOperation.subtract row column factor).apply m) := by
  refine ⟨fun j early => ?_, fun j early i below => ?_⟩
  · rw [square_subtract_of_ne (by omega)]
    exact reduced.pivot j early
  · by_cases same : i = row
    · rw [same, square_subtract_target, reduced.below j early row (by omega),
        reduced.below j early column early, mul_zero, sub_zero]
    · rw [square_subtract_of_ne same]
      exact reduced.below j early i below

theorem clearColumn_replays (rows : List (Fin n)) (reduced : Reduced column.val m)
    (pivot : m.square column column ≠ 0) (low : ∀ row ∈ rows, column < row) :
    ∃ m', (clearColumn column rows m).ending = .ok m' ∧
      Replays m.matrix ((clearColumn column rows m).entries.map Snapshot.shown) m'.matrix := by
  induction rows generalizing m with
  | nil => exact ⟨m, rfl, .nil⟩
  | cons row rows ih =>
    obtain ⟨below, low⟩ := List.forall_mem_cons.1 low
    obtain ⟨factor, division, -⟩ := Fraction.exists_divide (m.coefficient row column) pivot
    let operation := RowOperation.subtract row column factor
    have kept : (operation.apply m).square column column ≠ 0 := by
      rwa [square_subtract_of_ne below.ne]
    obtain ⟨m', ended, replays⟩ := ih (reduced.subtract below factor) kept low
    have first : Replays m.matrix _ _ := replays_perform operation below.ne' reduced
    have unfolded : clearColumn column (row :: rows) m =
        perform operation m >>= clearColumn column rows := by
      rw [clearColumn, division]
      rfl
    rw [unfolded, Trail.bind_of_ok _ rfl]
    refine ⟨m', ended, ?_⟩
    rw [List.map_append]
    exact first.append replays

/-- The pivot is the greatest entry from the diagonal downward also after it is brought there. -/
theorem abs_le_of_swap {i : Fin n} (low : column ≤ i) :
    let swapped := (RowOperation.swap column (pivotRow m column)).apply m
    |swapped.square i column| ≤ |swapped.square column column| := by
  dsimp only
  rw [square_swap, square_swap, Equiv.swap_apply_left]
  refine abs_le_pivotRow m ?_
  have lowPivot := pivotRow_le m column
  rcases eq_or_ne i column with rfl | notDiagonal
  · rwa [Equiv.swap_apply_left]
  · rcases eq_or_ne i (pivotRow m column) with rfl | notPivot
    · rw [Equiv.swap_apply_right]
    · rwa [Equiv.swap_apply_of_ne_of_ne notDiagonal notPivot]

/-- What is left to do in a column once the pivot is on the diagonal. -/
theorem clearBelow_replays (reduced : Reduced column.val m)
    (greatest : ∀ i, column ≤ i → |m.square i column| ≤ |m.square column column|) :
    let rest : Trail (Snapshot n) Error (Augmented n) :=
      if (m.coefficient column column).isZero then .fail (.zeroPivot (column.val + 1))
      else clearColumn column (after column) m
    ∃ m', Replays m.matrix (rest.entries.map Snapshot.shown) m'.matrix ∧
      (rest.ending = .ok m' ∨ rest.ending = .error (.zeroPivot (column.val + 1)) ∧
        Reduced column.val m' ∧ ∀ i, column ≤ i → m'.square i column = 0) := by
  dsimp only
  split
  next zero =>
    have pivotZero : m.square column column = 0 := Fraction.isZero_iff.1 zero
    refine ⟨m, .nil, .inr ⟨rfl, reduced, fun i low => ?_⟩⟩
    have bound := greatest i low
    rw [pivotZero, abs_zero] at bound
    exact abs_nonpos_iff.1 bound
  next nonzero =>
    obtain ⟨m', ended, replays⟩ := clearColumn_replays (after column) reduced
      (mt Fraction.isZero_iff.2 nonzero) fun row later => mem_after.1 later
    exact ⟨m', replays, .inl ended⟩

theorem eliminateColumn_replays (column : Fin n) (reduced : Reduced column.val m) :
    ∃ m', Replays m.matrix ((eliminateColumn column m).entries.map Snapshot.shown) m'.matrix ∧
      ((eliminateColumn column m).ending = .ok m' ∨
        (eliminateColumn column m).ending = .error (.zeroPivot (column.val + 1)) ∧
          Reduced column.val m' ∧ ∀ i, column ≤ i → m'.square i column = 0) := by
  by_cases same : pivotRow m column = column
  · rw [eliminateColumn_of_eq same]
    refine clearBelow_replays reduced fun i low => ?_
    have bound := abs_le_pivotRow m low
    rwa [same] at bound
  · let operation := RowOperation.swap column (pivotRow m column)
    have first : Replays m.matrix _ _ := replays_perform operation trivial reduced
    obtain ⟨m', replays, ended⟩ := clearBelow_replays (m := operation.apply m)
      (reduced.swap le_rfl (pivotRow_le m column)) fun i => abs_le_of_swap
    refine ⟨m', ?_, ?_⟩
    · rw [eliminateColumn, if_neg same, Trail.bind_of_ok _ rfl, List.map_append]
      exact first.append replays
    · rw [eliminateColumn, if_neg same, Trail.bind_of_ok _ rfl]
      exact ended

/-- What elimination shows, whether it comes to its end or to a column without a pivot. -/
theorem eliminate_replays {k : ℕ} {m : Augmented n} (reduced : Reduced k m) :
    let trail := eliminate ((List.finRange n).drop k) m
    ∃ m', Replays m.matrix (trail.entries.map Snapshot.shown) m'.matrix ∧
      (trail.ending = .ok m' ∧ Reduced n m' ∨
        ∃ column : Fin n, trail.ending = .error (.zeroPivot (column.val + 1)) ∧
          Reduced column.val m' ∧ ∀ i, column ≤ i → m'.square i column = 0) := by
  dsimp only
  -- As in `eliminate_ending`, the columns are dropped from the front one by one.
  induction remaining : n - k generalizing k m with
  | zero =>
    rw [List.drop_eq_nil_of_le (by simp; omega)]
    refine ⟨m, .nil, .inl ⟨rfl, ?_⟩⟩
    exact ⟨fun j _ => reduced.pivot j (by omega), fun j _ => reduced.below j (by omega)⟩
  | succ remaining ih =>
    have inside : k < n := by omega
    rw [drop_finRange inside, eliminate]
    obtain ⟨next, first, ended | ⟨ended, stuck⟩⟩ :=
      eliminateColumn_replays ⟨k, inside⟩ reduced
    · obtain ⟨next', ended', -, reducedNext⟩ :=
        (eliminateColumn_ending ⟨k, inside⟩ reduced).resolve_right (by simp [ended])
      obtain rfl : next = next' := Except.ok.inj (ended.symm.trans ended')
      obtain ⟨m', later, end'⟩ := ih reducedNext (by dsimp only; omega)
      rw [Trail.bind_of_ok _ ended, List.map_append]
      exact ⟨m', first.append later, end'⟩
    · rw [Trail.bind_of_error _ ended]
      exact ⟨next, first, .inr ⟨_, rfl, stuck⟩⟩

end Stepwise.Linear
