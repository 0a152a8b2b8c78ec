import Mathlib.Order.Bounds.Basic
import Stepwise.Proofs.Linear.Dependence
import Stepwise.Proofs.Linear.Record

/-!
# The choice of pivots

Elimination brings to the diagonal the uppermost of the rows whose entry in the column is greatest,
and so never subtracts a row more than once from another.

- `Extended.greatest`: the rows among which a pivot is chosen
- `isLeast_pivotRow`: the one that is chosen
- `Treats`: what is shown of the treatment of a column
- `eliminate_treats`: what elimination shows of each column that it reaches
- `pivots_on_greatest`: the same of the record that a solver leaves
-/

namespace Stepwise.Linear

variable {n : ℕ}

/-! ## Pivots -/

namespace Extended

variable {M : Extended n} {column pivot : Fin n}

/-- The rows, from the diagonal downward, in which the entry of a column is greatest in
magnitude. -/
def greatest (M : Extended n) (column : Fin n) : Set (Fin n) :=
  {p | column ≤ p ∧ ∀ i, column ≤ i → |M i column.castSucc| ≤ |M p column.castSucc|}

/-- The uppermost of them is not on the diagonal if there is a greater entry below. -/
theorem ne_iff_of_isLeast (least : IsLeast (M.greatest column) pivot) :
    pivot ≠ column ↔ ∃ i, column < i ∧ |M column column.castSucc| < |M i column.castSucc| := by
  obtain ⟨⟨low, greatest⟩, first⟩ := least
  constructor
  · intro elsewhere
    have passed : column ∉ M.greatest column := fun member =>
      elsewhere ((first member).antisymm low)
    obtain ⟨i, lowI, greater⟩ :
        ∃ i, column ≤ i ∧ |M column column.castSucc| < |M i column.castSucc| := by
      by_contra! bound
      exact passed ⟨le_rfl, bound⟩
    exact ⟨i, lowI.lt_of_ne (by rintro rfl; exact lt_irrefl _ greater), greater⟩
  · rintro ⟨i, below, greater⟩ rfl
    exact (greatest i below.le).not_gt greater

end Extended

/-- If the candidates come in order, those before the best one are worse. -/
theorem foldl_better_first (size : Fin n → Fraction) (candidates : List (Fin n)) (start : Fin n)
    (ordered : (start :: candidates).Pairwise (· < ·)) :
    let best := candidates.foldl
      (fun best i => if (compare (size best) (size i)).isLT then i else best) start
    ∀ i ∈ start :: candidates, i < best → (size i).value < (size best).value := by
  induction candidates generalizing start with
  | nil =>
    intro best i member before
    exact absurd (List.mem_singleton.1 member) before.ne
  | cons next candidates ih =>
    obtain ⟨first, orderedNext⟩ := List.pairwise_cons.1 ordered
    simp only [List.foldl_cons, Fraction.compare_eq, Ordering.isLT_iff_eq_lt, compare_lt_iff_lt]
      at ih ⊢
    split
    next less =>
      have bound := (foldl_better size candidates next).2 next List.mem_cons_self
      simp only [Fraction.compare_eq, Ordering.isLT_iff_eq_lt, compare_lt_iff_lt] at bound
      intro i member before
      rcases List.mem_cons.1 member with rfl | member
      · exact less.trans_le bound
      · exact ih next orderedNext i member before
    next notLess =>
      have orderedStart : (start :: candidates).Pairwise (· < ·) :=
        List.pairwise_cons.2 ⟨fun i member => first i (List.mem_cons_of_mem _ member),
          (List.pairwise_cons.1 orderedNext).2⟩
      have earlier := ih start orderedStart
      intro i member before
      rcases List.mem_cons.1 member with rfl | member
      · exact earlier i List.mem_cons_self before
      · rcases List.mem_cons.1 member with rfl | member
        · have passed := (first i List.mem_cons_self).trans before
          exact (not_lt.1 notLess).trans_lt (earlier start List.mem_cons_self passed)
        · exact earlier i (List.mem_cons_of_mem _ member) before

/-- The pivot is the uppermost row among those with the greatest entry. -/
theorem isLeast_pivotRow (m : Augmented n) (column : Fin n) :
    IsLeast (Extended.greatest m.matrix column) (pivotRow m column) := by
  refine ⟨⟨pivotRow_le m column, fun i low => abs_le_pivotRow m low⟩, ?_⟩
  rintro i ⟨low, greatest⟩
  by_contra! before
  have ordered : (column :: after column).Pairwise (· < ·) :=
    List.pairwise_cons.2 ⟨fun i later => mem_after.1 later,
      (List.pairwise_lt_finRange n).filter _⟩
  have among : i ∈ column :: after column := by
    rcases low.eq_or_lt with rfl | later
    · exact List.mem_cons_self
    · exact List.mem_cons_of_mem _ (mem_after.2 later)
  have less := foldl_better_first (fun i => (m.coefficient i column).abs) (after column) column
    ordered i among before
  simp only [Fraction.value_abs] at less
  exact (greatest (pivotRow m column) (pivotRow_le m column)).not_gt less

/-! ## One column -/

/-- The row of the pivot, which stands on the diagonal, is subtracted from another one, with a
factor up to one in magnitude. -/
structure Shown.Clears (s : Shown n) (column : Fin n) (row : Fin (n + 1) → ℚ) : Prop where
  move : ∃ target factor, s.move = .subtract target column factor ∧ |factor| ≤ 1
  row : s.matrix column = row

/-- What is shown first in the treatment of a column: how the pivot comes to the diagonal, unless it
is there. -/
def Extended.opening (M : Extended n) (column pivot : Fin n) : List (Shown n) :=
  if pivot = column then [] else [⟨.swap column pivot, (Move.swap column pivot).apply M⟩]

/-- What is shown of the treatment of a column that was reached with a matrix. -/
structure Treats (M : Extended n) (column pivot : Fin n) (shown : List (Shown n)) : Prop where
  chosen : IsLeast (M.greatest column) pivot
  moves : ∃ clearing, shown = M.opening column pivot ++ clearing ∧
    ∀ s ∈ clearing, s.Clears column (M pivot)

namespace Treats

variable {M : Extended n} {column pivot : Fin n} {shown : List (Shown n)}

theorem eq_or_clears (treats : Treats M column pivot shown) {s : Shown n} (mem : s ∈ shown) :
    (pivot ≠ column ∧ s = ⟨.swap column pivot, (Move.swap column pivot).apply M⟩) ∨
      s.Clears column (M pivot) := by
  obtain ⟨clearing, rfl, clears⟩ := treats.moves
  rcases List.mem_append.1 mem with first | later
  · rw [Extended.opening] at first
    split at first
    next => cases first
    next elsewhere => exact .inl ⟨elsewhere, List.mem_singleton.1 first⟩
  · exact .inr (clears s later)

theorem column_eq (treats : Treats M column pivot shown) {s : Shown n} (mem : s ∈ shown) :
    s.move.column = column := by
  obtain ⟨-, rfl⟩ | ⟨⟨target, factor, move, -⟩, -⟩ := treats.eq_or_clears mem
  · rfl
  · rw [move]
    rfl

theorem abs_factor_le (treats : Treats M column pivot shown) {s : Shown n} (mem : s ∈ shown)
    {target source : Fin n} {factor : ℚ} (move : s.move = .subtract target source factor) :
    |factor| ≤ 1 := by
  obtain ⟨-, rfl⟩ | ⟨⟨target', factor', move', bound⟩, -⟩ := treats.eq_or_clears mem
  · cases move
  · cases move'.symm.trans move
    exact bound

/-- Two rows change places just if there is a greater entry below the diagonal. -/
theorem swaps_iff (treats : Treats M column pivot shown) :
    (∃ s ∈ shown, ∃ i j, s.move = .swap i j) ↔
      ∃ i, column < i ∧ |M column column.castSucc| < |M i column.castSucc| := by
  rw [← Extended.ne_iff_of_isLeast treats.chosen]
  constructor
  · rintro ⟨s, mem, i, j, move⟩
    obtain ⟨elsewhere, -⟩ | ⟨⟨target, factor, move', -⟩, -⟩ := treats.eq_or_clears mem
    · exact elsewhere
    · cases move'.symm.trans move
  · intro elsewhere
    obtain ⟨clearing, rfl, -⟩ := treats.moves
    rw [Extended.opening, if_neg elsewhere]
    exact ⟨_, List.mem_cons_self, column, pivot, rfl⟩

end Treats

section

variable {m : Augmented n} {column : Fin n}

theorem clearColumn_clears (rows : List (Fin n)) (pivot : m.square column column ≠ 0)
    (low : ∀ row ∈ rows, column < row)
    (greatest : ∀ i, column ≤ i → |m.square i column| ≤ |m.square column column|) :
    ∀ s ∈ (clearColumn column rows m).entries.map Snapshot.shown,
      s.Clears column (m.matrix column) := by
  induction rows generalizing m with
  | nil => exact List.forall_mem_nil _
  | cons row rows ih =>
    obtain ⟨below, low⟩ := List.forall_mem_cons.1 low
    obtain ⟨factor, division, quotient⟩ := Fraction.exists_divide (m.coefficient row column) pivot
    let operation := RowOperation.subtract row column factor
    have pivotRow : (operation.apply m).matrix column = m.matrix column := by
      rw [operation.matrix_apply]
      exact Matrix.updateRow_ne below.ne
    have pivotKept : (operation.apply m).square column column = m.square column column :=
      congrFun pivotRow column.castSucc
    have unfolded : clearColumn column (row :: rows) m =
        perform operation m >>= clearColumn column rows := by
      rw [clearColumn, division]
      rfl
    rw [unfolded, Trail.bind_of_ok _ rfl, List.map_append, List.forall_mem_append]
    refine ⟨?_, ?_⟩
    · refine List.forall_mem_singleton.2 ⟨⟨row, factor.value, rfl, ?_⟩, pivotRow⟩
      rw [quotient, abs_div]
      exact div_le_one_of_le₀ (greatest row below.le) (abs_nonneg _)
    · rw [← pivotRow]
      refine ih (by rwa [pivotKept]) low fun i lowI => ?_
      rw [pivotKept]
      by_cases same : i = row
      · have zero : (operation.apply m).square i column = 0 := by
          rw [same, square_subtract_target, quotient]
          exact sub_eq_zero.2 (div_mul_cancel₀ _ pivot).symm
        rw [zero, abs_zero]
        exact abs_nonneg _
      · rw [square_subtract_of_ne same]
        exact greatest i lowI

theorem clearBelow_clears
    (greatest : ∀ i, column ≤ i → |m.square i column| ≤ |m.square column column|) :
    let rest : Trail (Snapshot n) Error (Augmented n) :=
      if (m.coefficient column column).isZero then .fail (.zeroPivot (column.val + 1))
      else clearColumn column (after column) m
    ∀ s ∈ rest.entries.map Snapshot.shown, s.Clears column (m.matrix column) := by
  dsimp only
  split
  next => exact List.forall_mem_nil _
  next nonzero =>
    exact clearColumn_clears (after column) (mt Fraction.isZero_iff.2 nonzero)
      (fun row later => mem_after.1 later) greatest

theorem eliminateColumn_treats (m : Augmented n) (column : Fin n) :
    Treats m.matrix column (pivotRow m column)
      ((eliminateColumn column m).entries.map Snapshot.shown) := by
  refine ⟨isLeast_pivotRow m column, ?_⟩
  by_cases same : pivotRow m column = column
  · rw [eliminateColumn_of_eq same, Extended.opening, if_pos same, same]
    refine ⟨_, rfl, clearBelow_clears fun i low => ?_⟩
    have bound := abs_le_pivotRow m low
    rwa [same] at bound
  · let operation := RowOperation.swap column (pivotRow m column)
    have brought : (operation.apply m).matrix column = m.matrix (pivotRow m column) := by
      rw [operation.matrix_apply]
      exact congrArg m.matrix (Equiv.swap_apply_left column (pivotRow m column))
    have opening : Extended.opening m.matrix column (pivotRow m column) =
        (perform operation m).entries.map Snapshot.shown := by
      rw [Extended.opening, if_neg same]
      change _ = [(⟨operation.move, (operation.apply m).matrix⟩ : Shown n)]
      rw [operation.matrix_apply]
      rfl
    have clears := clearBelow_clears (m := operation.apply m) fun i => abs_le_of_swap
    rw [eliminateColumn, if_neg same, Trail.bind_of_ok _ rfl, List.map_append, opening, ← brought]
    exact ⟨_, rfl, clears⟩

end

/-! ## All columns -/

/-- The matrix with which a column is reached: the last one before the moves in this column. -/
def reachedWith (M : Extended n) (shown : List (Shown n)) (k : Fin n) : Extended n :=
  (M :: (shown.takeWhile (·.move.column < k)).map Shown.matrix).getLast (List.cons_ne_nil _ _)

/-- What is shown of the treatment of a column. -/
def movesIn (shown : List (Shown n)) (k : Fin n) : List (Shown n) :=
  shown.filter (·.move.column = k)

section

variable {M : Extended n} {k : Fin n} {first later : List (Shown n)}

theorem reachedWith_of_late (late : ∀ s ∈ later, k ≤ s.move.column) :
    reachedWith M later k = M := by
  have none : later.takeWhile (·.move.column < k) = [] := by
    cases later with
    | nil => rfl
    | cons s later =>
      exact List.takeWhile_cons_of_neg (by simpa using late s List.mem_cons_self)
  simp only [reachedWith, none, List.map_nil, List.getLast_singleton]

theorem getLast_append (M : Extended n) (first later : List (Shown n)) :
    (M :: (first ++ later).map Shown.matrix).getLast (List.cons_ne_nil _ _) =
      ((M :: first.map Shown.matrix).getLast (List.cons_ne_nil _ _) ::
        later.map Shown.matrix).getLast (List.cons_ne_nil _ _) := by
  induction first generalizing M with
  | nil => rfl
  | cons s first ih =>
    simp only [List.cons_append, List.map_cons, List.getLast_cons_cons]
    exact ih s.matrix

theorem reachedWith_append {M' : Extended n} (early : ∀ s ∈ first, s.move.column < k)
    (last : (M :: first.map Shown.matrix).getLast (List.cons_ne_nil _ _) = M') :
    reachedWith M (first ++ later) k = reachedWith M' later k := by
  have whole : (first ++ later).takeWhile (·.move.column < k) =
      first ++ later.takeWhile (·.move.column < k) :=
    List.takeWhile_append_of_pos fun s mem => decide_eq_true (early s mem)
  simp only [reachedWith, whole, getLast_append, last]

theorem movesIn_append : movesIn (first ++ later) k = movesIn first k ++ movesIn later k :=
  List.filter_append first later

theorem movesIn_eq_self (all : ∀ s ∈ first, s.move.column = k) : movesIn first k = first :=
  List.filter_eq_self.2 fun s mem => decide_eq_true (all s mem)

theorem movesIn_eq_nil (none : ∀ s ∈ first, s.move.column ≠ k) : movesIn first k = [] :=
  List.filter_eq_nil_iff.2 fun s mem => by simpa using none s mem

end

/-- What elimination shows of each column that it reaches. -/
theorem eliminate_treats {k : ℕ} {m : Augmented n} (reduced : Reduced k m) :
    let trail := eliminate ((List.finRange n).drop k) m
    let shown := trail.entries.map Snapshot.shown
    (∀ s ∈ shown, k ≤ s.move.column.val ∧
      ∀ target source factor, s.move = .subtract target source factor → |factor| ≤ 1) ∧
    shown.Pairwise (fun s s' => s.move.column ≤ s'.move.column) ∧
    ∀ column : Fin n, k ≤ column.val → (∀ c, trail.ending = .error (.zeroPivot c) → column < c) →
      ∃ pivot, Treats (reachedWith m.matrix shown column) column pivot (movesIn shown column) := by
  dsimp only
  -- As in `eliminate_replays`, the columns are dropped from the front one by one.
  induction remaining : n - k generalizing k m with
  | zero =>
    rw [List.drop_eq_nil_of_le (by simp; omega)]
    exact ⟨List.forall_mem_nil _, .nil, fun column late => absurd column.isLt (by omega)⟩
  | succ remaining ih =>
    have inside : k < n := by omega
    let column : Fin n := ⟨k, inside⟩
    have treats := eliminateColumn_treats m column
    have moves : ∀ s ∈ (eliminateColumn column m).entries.map Snapshot.shown,
        k ≤ s.move.column.val ∧
          ∀ target source factor, s.move = .subtract target source factor → |factor| ≤ 1 :=
      fun s mem => ⟨(congrArg Fin.val (treats.column_eq mem)).ge,
        fun _ _ _ => treats.abs_factor_le mem⟩
    have ordered : ((eliminateColumn column m).entries.map Snapshot.shown).Pairwise
        (fun s s' => s.move.column ≤ s'.move.column) :=
      List.pairwise_of_forall_mem_list fun s mem s' mem' =>
        ((treats.column_eq mem).trans (treats.column_eq mem').symm).le
    have late {shown : List (Shown n)} (late : ∀ s ∈ shown, k ≤ s.move.column.val) :
        reachedWith m.matrix shown column = m.matrix := reachedWith_of_late late
    rw [drop_finRange inside, eliminate]
    obtain ⟨next, replays, ended | ⟨ended, -⟩⟩ := eliminateColumn_replays column reduced
    · obtain ⟨next', ended', -, reducedNext⟩ :=
        (eliminateColumn_ending column reduced).resolve_right (by simp [ended])
      obtain rfl : next = next' := Except.ok.inj (ended.symm.trans ended')
      obtain ⟨movesLater, orderedLater, treatsLater⟩ := ih reducedNext (by dsimp only [column]; omega)
      have moves' := List.forall_mem_append.2
        ⟨moves, fun s mem => (movesLater s mem).imp_left (Nat.le_succ k).trans⟩
      rw [Trail.bind_of_ok _ ended, List.map_append]
      refine ⟨moves', List.pairwise_append.2 ⟨ordered, orderedLater, fun s mem s' mem' => ?_⟩,
        fun other low reached => ?_⟩
      · rw [treats.column_eq mem]
        exact (Nat.le_succ k).trans (movesLater s' mem').1
      rcases (Fin.le_def.2 low : column ≤ other).eq_or_lt with rfl | below
      · have none := movesIn_eq_nil fun s mem => (Fin.lt_def.2 (movesLater s mem).1).ne'
        rw [late fun s mem => (moves' s mem).1, movesIn_append, none, List.append_nil,
          movesIn_eq_self fun s => treats.column_eq]
        exact ⟨_, treats⟩
      · have early : ∀ s ∈ (eliminateColumn column m).entries.map Snapshot.shown,
            s.move.column < other := fun s mem => (treats.column_eq mem).trans_lt below
        have none := movesIn_eq_nil fun s mem => (early s mem).ne
        rw [reachedWith_append early replays.getLast, movesIn_append, none, List.nil_append]
        exact treatsLater other below reached
    · rw [Trail.bind_of_error _ ended]
      refine ⟨moves, ordered, fun other low reached => ?_⟩
      obtain rfl : other = column := Fin.ext ((Nat.le_of_lt_succ (reached _ rfl)).antisymm low)
      rw [late fun s mem => (moves s mem).1, movesIn_eq_self fun s => treats.column_eq]
      exact ⟨_, treats⟩

/-! ## The record -/

/-- Whatever elimination comes to, its record starts from the system and goes on with what it
shows. -/
theorem read_gaussian {m : ℕ} (setup : Setup) {s : System Float m} {e : System Fraction m}
    (exact : s.exact = .ok e) (nonempty : 0 < m) :
    let trail := eliminate (List.finRange m) e.augmented
    let r := gaussian (Method.title .gaussian) setup s
    ∃ found answered, Record.read m r.transcript =
        some ⟨e.augmented.matrix, trail.entries.map Snapshot.shown, found, answered⟩ ∧
      ∀ c, trail.ending = .error (.zeroPivot c) → r.error? = some (.zeroPivot c) := by
  have ended := eliminate_ending (.zero e.augmented)
  rw [List.drop_zero] at ended
  dsimp only
  obtain ⟨t, eliminated, -, reduced⟩ | ⟨column, -, stuck, -⟩ := ended
  · obtain ⟨x, substituted, -⟩ := backSubstitute_solves reduced (Vector.replicate m 0)
    refine ⟨_, _, read_of_found exact nonempty eliminated substituted, fun c failed => ?_⟩
    cases eliminated.symm.trans failed
  · refine ⟨_, _, read_of_stuck exact nonempty stuck, fun c failed => ?_⟩
    rw [gaussian_of_stuck exact failed]
    rfl

/-- The pivots that a record shows, in the columns that were reached: to the diagonal comes the
uppermost row with the greatest entry from there downward, by a swap just if there is a greater one
below the diagonal, and no factor is greater than one. -/
structure Record.Pivots (R : Record n) (reached : Fin n → Prop) : Prop where
  ordered : R.shown.Pairwise fun s s' => s.move.column ≤ s'.move.column
  treats : ∀ k, reached k →
    ∃ pivot, Treats (reachedWith R.initial R.shown k) k pivot (movesIn R.shown k)
  swaps_iff : ∀ k, reached k → ((∃ s ∈ movesIn R.shown k, ∃ i j, s.move = .swap i j) ↔
    ∃ i, k < i ∧ |reachedWith R.initial R.shown k k k.castSucc| <
      |reachedWith R.initial R.shown k i k.castSucc|)
  abs_factor_le : ∀ s ∈ R.shown, ∀ target source factor,
    s.move = .subtract target source factor → |factor| ≤ 1

theorem exists_pivots {m : ℕ} {A : Matrix (Fin n) (Fin n) ℚ} {v : Fin n → ℚ} {setup : Setup}
    {s : System Float m} {e : System Fraction m} (exact : s.exact = .ok e) (holds : e.Holds A v)
    (nonempty : 0 < n) :
    let r := gaussian (Method.title .gaussian) setup s
    ∃ R : Record n, Record.read n r.transcript = some R ∧ R.Proves A v ∧
      R.Pivots fun k => ∀ c, r.error? = some (.zeroPivot c) → k.val < c := by
  obtain rfl := holds.size
  obtain ⟨rfl, rfl⟩ := holds.eq
  obtain ⟨found, answered, read, failed⟩ := read_gaussian setup exact nonempty
  obtain ⟨_, replays, -⟩ := eliminate_replays (.zero e.augmented)
  obtain ⟨moves, ordered, treats⟩ := eliminate_treats (.zero e.augmented)
  rw [List.drop_zero] at replays moves ordered treats
  have pivots (k : Fin m) (reached : ∀ c, (gaussian (Method.title .gaussian) setup s).error? =
      some (.zeroPivot c) → k.val < c) := treats k (Nat.zero_le _) fun c ended =>
    reached c (failed c ended)
  refine ⟨_, read, (Record.Proves.of_replays e.matrix_augmented replays).1, ordered, pivots,
    fun k reached => ?_, fun s mem => (moves s mem).2⟩
  obtain ⟨pivot, treats⟩ := pivots k reached
  exact treats.swaps_iff

/-- Elimination chooses the pivot of each column that it reaches by the exact magnitude of the
entries, the uppermost of several, and subtracts no row more than once from another. -/
theorem pivots_on_greatest {a : Matrix (Fin n) (Fin n) Float} {b : Fin n → Float}
    {A : Matrix (Fin n) (Fin n) ℚ} {v : Fin n → ℚ} (image : ExactImage a b A v)
    (nonempty : 1 ≤ n) (e : Engine .gaussian) {tolerance? : Option Float}
    (accepted : tolerance?.all isTolerance = true) :
    let r := e.solve (listed a) (List.ofFn b) tolerance?
    ∃ R : Record n, Record.read n r.2.transcript = some R ∧ R.Proves A v ∧
      R.Pivots fun k => ∀ c, r.2.error? = some (.zeroPivot c) → k.val < c := by
  obtain ⟨s, x, checked, exact, holds⟩ := image.exists_exact nonempty nonempty
  rw [Engine.solve_of_all_accepted accepted]
  dsimp only
  rw [report_of_check_gaussian checked]
  exact exists_pivots exact holds nonempty

theorem pivots_on_greatest_two_by_two :
    let e : Engine .gaussian := .make {}
    let r := e.solve (listed !![1.0, 2.0; 2.0, 4.0]) (List.ofFn ![3.0, 5.0]) none
    ∃ R : Record 2, Record.read 2 r.2.transcript = some R ∧
      R.initial = .ofSides !![1, 2; 2, 4] ![3, 5] ∧
      ∃ s ∈ movesIn R.shown 0, ∃ i j, s.move = .swap i j := by
  intro e r
  obtain ⟨R, read, proves, pivots⟩ := pivots_on_greatest exactImage_of_rank_one (by decide) e
    (rfl : (none : Option Float).all isTolerance = true)
  have failed := (solve_eq_zeroPivot_iff exactImage_of_rank_one (by decide) e
    (rfl : (none : Option Float).all isTolerance = true) 2).2 ⟨1, rfl, firstDependent_of_rank_one⟩
  refine ⟨R, read, proves.initial, (pivots.swaps_iff 0 ?_).2 ⟨1, by decide, ?_⟩⟩
  · intro c error
    cases failed.2.symm.trans error
    decide
  · rw [reachedWith_of_late fun s _ => Fin.zero_le _, proves.initial]
    norm_num [Extended.ofSides, Fin.snoc]

end Stepwise.Linear
