import Stepwise.Linear.Sweep
import Stepwise.Proofs.Binary64.Total

/-!
# Dominant orders

- `Places`: rows that suit positions one by one
- `place_eq_none_iff`, `places_of_place`, `le_of_places`: `place` finds the first of these
- `System.Outweighs`: an entry that is greater than the others of its row together, as far as the
  total shows; `System.Outweighs.column_unique`: a row has at most one
- `System.Arranges`: an order of the rows with such entries on the diagonal
- `dominantOrder_least`: which order is found, and what is iterated in it
-/

namespace Stepwise.Linear

open Binary64

/-! ## Placing rows -/

section

variable {ι : Type} [BEq ι] {suits : ι → ι → Bool} {positions free rows : List ι}

/-- Rows that suit the positions in turn, each taken from those that are free by then. -/
inductive Places (suits : ι → ι → Bool) : (positions free rows : List ι) → Prop where
  | nil {free : List ι} : Places suits [] free []
  | cons {position row : ι} {positions free rows : List ι} (mem : row ∈ free)
    (suitable : suits row position = true)
    (later : Places suits positions (free.erase row) rows) :
    Places suits (position :: positions) free (row :: rows)

theorem toList_prepend {β : Type} {n : Nat} (b : β) (v : Vector β n) :
    (prepend b v).toList = b :: v.toList := by
  simp [prepend]

theorem place_cons {position : ι} : place suits (position :: positions) free =
    free.findSome? fun row =>
      if suits row position = true then
        (place suits positions (free.erase row)).map (prepend row) else none := rfl

/-- A row is placed first if it suits the first position and the rest can be placed after it. -/
theorem attempt_eq_some_iff {position row : ι} {v : Vector ι (positions.length + 1)} :
    (if suits row position = true then
      (place suits positions (free.erase row)).map (prepend row) else none) = some v ↔
    suits row position = true ∧
      ∃ w, place suits positions (free.erase row) = some w ∧ prepend row w = v := by
  split
  next suitable => simp [suitable]
  next unsuitable => simp [unsuitable]

theorem attempt_eq_none_iff {position row : ι} :
    (if suits row position = true then
      (place suits positions (free.erase row)).map (prepend row) else none) = none ↔
    (suits row position = true → place suits positions (free.erase row) = none) := by
  split
  next suitable => simp [suitable]
  next unsuitable => simp [unsuitable]

theorem places_of_place {v : Vector ι positions.length}
    (found : place suits positions free = some v) : Places suits positions free v.toList := by
  induction positions generalizing free with
  | nil =>
    rw [@Vector.eq_empty _ v]
    exact .nil
  | cons position positions ih =>
    rw [place_cons] at found
    obtain ⟨row, mem, attempted⟩ := List.exists_of_findSome?_eq_some found
    obtain ⟨suitable, w, rest, rfl⟩ := attempt_eq_some_iff.1 attempted
    rw [toList_prepend]
    exact .cons mem suitable (ih rest)

theorem place_eq_none_iff :
    place suits positions free = none ↔ ∀ rows, ¬ Places suits positions free rows := by
  induction positions generalizing free with
  | nil => exact iff_of_false (Option.some_ne_none _) fun none => none [] .nil
  | cons position positions ih =>
    rw [place_cons, List.findSome?_eq_none_iff]
    simp only [attempt_eq_none_iff, ih]
    constructor
    · intro stuck rows places
      cases places with
      | cons mem suitable later => exact stuck _ mem suitable _ later
    · intro none row mem suitable rows later
      exact none _ (.cons mem suitable later)

end

/-- The rows found are the least ones, position by position. -/
theorem le_of_places {ι : Type} [LinearOrder ι] [BEq ι] [LawfulBEq ι] {suits : ι → ι → Bool}
    {positions free rows : List ι} {v : Vector ι positions.length}
    (sorted : free.Pairwise (· < ·)) (found : place suits positions free = some v)
    (places : Places suits positions free rows) : v.toList ≤ rows := by
  induction places with
  | nil => rw [@Vector.eq_empty _ v]; exact le_rfl
  | @cons position row positions free rows mem suitable later ih =>
    rw [place_cons, List.findSome?_eq_some_iff] at found
    obtain ⟨earlier, first, others, rfl, attempted, failed⟩ := found
    obtain ⟨-, w, rest, rfl⟩ := attempt_eq_some_iff.1 attempted
    rw [toList_prepend]
    rw [List.mem_append, List.mem_cons] at mem
    obtain ⟨-, ordered, -⟩ := List.pairwise_append.1 sorted
    -- The row is not one of those tried before, so it is the one that was found, or a later one.
    obtain before | rfl | after := mem
    · have stuck := attempt_eq_none_iff.1 (failed row before) suitable
      exact absurd later (place_eq_none_iff.1 stuck rows)
    · exact List.cons_le_cons row (ih (sorted.sublist (List.erase_sublist)) rest)
    · exact le_of_lt (List.Lex.rel (List.rel_of_pairwise_cons ordered after))

/-- Rows that are placed are different ones of those that are free, and suit their positions. -/
theorem places_iff {ι : Type} [BEq ι] [LawfulBEq ι] {suits : ι → ι → Bool}
    {positions free rows : List ι} (nodup : free.Nodup) :
    Places suits positions free rows ↔ rows.Nodup ∧ rows ⊆ free ∧
      List.Forall₂ (fun row position => suits row position = true) rows positions := by
  constructor
  · intro places
    induction places with
    | nil => exact ⟨.nil, List.nil_subset _, .nil⟩
    | cons mem suitable _ ih =>
      obtain ⟨distinct, inside, suited⟩ := ih (nodup.erase _)
      refine ⟨.cons (fun again => ?_) distinct, ?_, .cons suitable suited⟩
      · exact (nodup.mem_erase_iff.1 (inside again)).1 rfl
      · exact List.cons_subset.2 ⟨mem, List.Subset.trans inside List.erase_subset⟩
  · rintro ⟨distinct, inside, suited⟩
    induction suited generalizing free with
    | nil => exact .nil
    | cons suitable suited ih =>
      obtain ⟨first, others⟩ := List.cons_subset.1 inside
      obtain ⟨notAgain, distinct⟩ := List.nodup_cons.1 distinct
      refine .cons first suitable (ih (nodup.erase _) distinct fun row mem => ?_)
      exact nodup.mem_erase_iff.2 ⟨fun same => notAgain (same ▸ mem), others mem⟩

variable {n : Nat}

theorem places_ofFn_iff {suits : Fin n → Fin n → Bool} {f : Fin n → Fin n} :
    Places suits (List.finRange n) (List.finRange n) (List.ofFn f) ↔
      Function.Injective f ∧ ∀ i, suits (f i) i = true := by
  rw [places_iff (List.nodup_finRange n), List.nodup_ofFn, List.ofFn_eq_map,
    List.forall₂_map_left_iff, List.forall₂_same]
  simp [List.subset_def]

/-! ## Rows that dominate -/

variable {s : System Float n} {order : Vector (Fin n) n}

/-- Twice an entry is greater in magnitude than the total of its row. -/
def System.Outweighs (s : System Float n) (row column : Fin n) : Prop :=
  rowTotal s row < 2.0 * (s.coefficients.entry row column).abs

instance (row column : Fin n) : Decidable (s.Outweighs row column) :=
  inferInstanceAs (Decidable (rowTotal s row < 2.0 * (s.coefficients.entry row column).abs))

/-- In this order of the rows, every entry on the diagonal outweighs the others of its row. -/
def System.Arranges (s : System Float n) (σ : Equiv.Perm (Fin n)) : Prop :=
  ∀ i, s.Outweighs (σ i) i

section

variable (finite : ∀ i j, (s.coefficients.entry i j).isFinite = true)

include finite

theorem isFinite_of_mem_row (row : Fin n) :
    ∀ x ∈ (s.coefficients.get row).toList, x.isFinite = true := by
  intro x mem
  obtain ⟨column, inside, rfl⟩ := List.getElem_of_mem mem
  exact finite row ⟨column, by simpa using inside⟩

theorem dominates_iff {row column : Fin n} :
    dominates s row column = true ↔ s.Outweighs row column := by
  have computes := computes_two_mul_abs (finite row column)
  have twice : AtLeast 0 (2.0 * (s.coefficients.entry row column).abs) :=
    computes.atLeast (by positivity) onGrid_zero (by positivity)
  have total : AtLeast 0 (rowTotal s row) :=
    atLeast_zero.foldl onGrid_zero le_rfl (isFinite_of_mem_row finite row)
  rw [System.Outweighs, ← twice.not_le_iff_lt total, dominates]
  simp

/-- The total of a row is no less than any two of its entries. -/
theorem atLeast_rowTotal {row column column' : Fin n} (distinct : column ≠ column') {g : ℚ}
    (onGrid : OnGrid g) (nonneg : 0 ≤ g)
    (le : g ≤ |value (s.coefficients.entry row column)| +
      |value (s.coefficients.entry row column')|) :
    AtLeast g (rowTotal s row) := by
  have pairs := List.pairwise_iff_getElem.1
    (pairwise_atLeast_foldl atLeast_zero (isFinite_of_mem_row finite row))
  obtain lt | gt := lt_or_gt_of_ne distinct
  · exact pairs column column' (by simp) (by simp) lt g onGrid nonneg le
  · rw [add_comm] at le
    exact pairs column' column (by simp) (by simp) gt g onGrid nonneg le

/-- Two entries cannot both outweigh the others: the total is no less than twice the lesser. -/
theorem System.Outweighs.column_unique {row column column' : Fin n}
    (first : s.Outweighs row column) (second : s.Outweighs row column') : column = column' := by
  by_contra distinct
  have twice (column : Fin n) : OnGrid
      (2 * |value (s.coefficients.entry row column)|) :=
    onGrid_two_mul (onGrid_abs (finite row column))
  obtain le | ge := le_total |value (s.coefficients.entry row column)|
    |value (s.coefficients.entry row column')|
  · have total := atLeast_rowTotal finite distinct (twice column) (by positivity) (by linarith)
    exact total.not_lt (computes_two_mul_abs (finite row column)) first
  · have total := atLeast_rowTotal finite distinct (twice column') (by positivity) (by linarith)
    exact total.not_lt (computes_two_mul_abs (finite row column')) second

theorem System.Outweighs.ne_zero {row column : Fin n} (outweighs : s.Outweighs row column) :
    (s.coefficients.entry row column == 0.0) = false := by
  rw [Bool.eq_false_iff, Ne, beq_iff (finite row column) isFinite_zero,
    value_zero]
  intro zero
  have computes := computes_two_mul_abs (finite row column)
  rw [zero, abs_zero, mul_zero] at computes
  have total : AtLeast 0 (rowTotal s row) :=
    atLeast_zero.foldl onGrid_zero le_rfl (isFinite_of_mem_row finite row)
  exact total.not_lt computes outweighs

/-- There is at most one order in which every entry on the diagonal outweighs the others. -/
theorem System.Arranges.unique {σ τ : Equiv.Perm (Fin n)} (first : s.Arranges σ)
    (second : s.Arranges τ) : σ = τ := by
  ext i
  -- The row that `σ` has at `i` is at some place of `τ` as well, and fits there.
  obtain ⟨j, same⟩ := τ.surjective (σ i)
  have again := second j
  rw [same] at again
  obtain rfl := (first i).column_unique finite again
  rw [same]

end

/-! ## The order that is found -/

theorem toList_eq_ofFn_get {α : Type} (v : Vector α n) : v.toList = List.ofFn v.get := by
  refine List.ext_getElem (by simp) fun i inside _ => ?_
  rw [List.getElem_ofFn, Vector.getElem_toList]
  rfl

theorem get_ofFn {α : Type} (f : Fin n → α) (i : Fin n) : (Vector.ofFn f).get i = f i :=
  Vector.getElem_ofFn i.isLt

theorem places_of_dominantOrder (found : dominantOrder s = some order) :
    Places (dominates s) (List.finRange n) (List.finRange n) order.toList := by
  obtain ⟨v, placed, rfl⟩ := Option.map_eq_some_iff.1 found
  rw [Vector.toList_cast]
  exact places_of_place placed

theorem dominantOrder_le {rows : List (Fin n)} (found : dominantOrder s = some order)
    (places : Places (dominates s) (List.finRange n) (List.finRange n) rows) :
    order.toList ≤ rows := by
  obtain ⟨v, placed, rfl⟩ := Option.map_eq_some_iff.1 found
  rw [Vector.toList_cast]
  exact le_of_places (List.pairwise_lt_finRange n) placed places

theorem places_of_arranges (finite : ∀ i j, (s.coefficients.entry i j).isFinite = true)
    {σ : Equiv.Perm (Fin n)} (arranges : s.Arranges σ) :
    Places (dominates s) (List.finRange n) (List.finRange n) (List.ofFn σ) :=
  places_ofFn_iff.2 ⟨σ.injective, fun i => (dominates_iff finite).2 (arranges i)⟩

theorem exists_arranges (finite : ∀ i j, (s.coefficients.entry i j).isFinite = true)
    (found : dominantOrder s = some order) :
    ∃ σ : Equiv.Perm (Fin n), order = .ofFn σ ∧ s.Arranges σ := by
  have places := places_of_dominantOrder found
  rw [toList_eq_ofFn_get] at places
  obtain ⟨injective, suitable⟩ := places_ofFn_iff.1 places
  refine ⟨.ofBijective order.get (Finite.injective_iff_bijective.1 injective), ?_, ?_⟩
  · ext i inside
    rw [Vector.getElem_ofFn]
    rfl
  · exact fun i => (dominates_iff finite).1 (suitable i)

theorem isSome_dominantOrder_iff (finite : ∀ i j, (s.coefficients.entry i j).isFinite = true) :
    (dominantOrder s).isSome = true ↔ ∃ σ, s.Arranges σ := by
  constructor
  · intro some
    obtain ⟨order, found⟩ := Option.isSome_iff_exists.1 some
    obtain ⟨σ, -, arranges⟩ := exists_arranges finite found
    exact ⟨σ, arranges⟩
  · rintro ⟨σ, arranges⟩
    by_contra none
    rw [Option.not_isSome_iff_eq_none, dominantOrder, Option.map_eq_none_iff,
      place_eq_none_iff] at none
    exact none _ (places_of_arranges finite arranges)

/-! ## The system that is iterated -/

/-- The system in the order that it is iterated in. -/
def System.arranged (s : System Float n) : System Float n :=
  match dominantOrder s with
  | some order => s.arrange order
  | none => s

/-- An equation: the coefficients of a row with the constant that belongs to them. -/
def System.equation {α : Type} (s : System α n) (i : Fin n) : Vector α n × α :=
  (s.coefficients.get i, s.constants.get i)

theorem System.ext_equation {α : Type} {s t : System α n}
    (same : ∀ i, s.equation i = t.equation i) : s = t := by
  obtain ⟨rows, constants⟩ := s
  obtain ⟨rows', constants'⟩ := t
  have coefficients : rows = rows' := by
    ext i inside : 1
    exact congrArg Prod.fst (same ⟨i, inside⟩)
  have right : constants = constants' := by
    ext i inside : 1
    exact congrArg Prod.snd (same ⟨i, inside⟩)
  rw [coefficients, right]

theorem System.equation_arrange {α : Type} (s : System α n) (order : Vector (Fin n) n)
    (i : Fin n) : (s.arrange order).equation i = s.equation (order.get i) := by
  have get_map {β : Type} (f : Fin n → β) : (order.map f).get i = f (order.get i) :=
    Vector.getElem_map f i.isLt
  rw [equation, arrange, get_map, get_map, equation]

theorem System.entry_arrange {α : Type} (s : System α n) (order : Vector (Fin n) n)
    (i j : Fin n) :
    (s.arrange order).coefficients.entry i j = s.coefficients.entry (order.get i) j :=
  congrArg (·.1.get j) (s.equation_arrange order i)

theorem isIdentity_iff : isIdentity order = true ↔ ∀ i, order.get i = i := by
  simp [isIdentity]

theorem arrange_of_isIdentity (identity : isIdentity order = true) : s.arrange order = s := by
  refine System.ext_equation fun i => ?_
  rw [System.equation_arrange, isIdentity_iff.1 identity]

/-- An iteration starts with the arranged system, unless that has a zero on the diagonal. -/
theorem ending_sweepStart (setup : Setup) (s : System Float n) (kind : Sweep) :
    (sweepStart setup s kind).ending =
      match (List.finRange n).find? fun i => s.arranged.coefficients.entry i i == 0.0 with
      | some row => .error (.zeroDiagonal (row.val + 1))
      | none => .ok s.arranged := by
  rw [sweepStart, Trail.ending_write_bind, System.arranged]
  -- An order that moves no row arranges nothing, so each case starts with the arranged system.
  cases dominantOrder s with
  | none =>
    simp only [Trail.ending_write_bind, Trail.ending_pure_bind]
    cases List.find? _ _ <;> rfl
  | some order =>
    dsimp only
    split
    next identity =>
      rw [arrange_of_isIdentity identity]
      simp only [Trail.ending_write_bind, Trail.ending_pure_bind]
      cases List.find? _ _ <;> rfl
    next =>
      simp only [Trail.ending_write_bind, Trail.ending_pure_bind]
      cases List.find? _ _ <;> rfl

theorem sweepStart_of_regular
    (regular : ∀ i, (s.arranged.coefficients.entry i i == 0.0) = false) (setup : Setup)
    (kind : Sweep) : (sweepStart setup s kind).ending = .ok s.arranged := by
  have none : ((List.finRange n).find? fun i => s.arranged.coefficients.entry i i == 0.0) = none :=
    List.find?_eq_none.2 fun i _ => by simp [regular i]
  rw [ending_sweepStart, none]

/-- In a dominant order no entry on the diagonal is zero. -/
theorem System.regular_arrange (finite : ∀ i j, (s.coefficients.entry i j).isFinite = true)
    (found : dominantOrder s = some order) (i : Fin n) :
    ((s.arrange order).coefficients.entry i i == 0.0) = false := by
  obtain ⟨σ, rfl, arranges⟩ := exists_arranges finite found
  rw [System.entry_arrange, get_ofFn, (arranges i).ne_zero finite]

theorem sweepStart_of_dominantOrder (finite : ∀ i j, (s.coefficients.entry i j).isFinite = true)
    (found : dominantOrder s = some order) (setup : Setup) (kind : Sweep) :
    (sweepStart setup s kind).ending = .ok (s.arrange order) := by
  have arranged : s.arranged = s.arrange order := by rw [System.arranged, found]
  rw [sweepStart_of_regular, arranged]
  intro i
  rw [arranged, System.regular_arrange finite found]

/-- An order of the rows is found if there is one in which every entry on the diagonal outweighs the
others of its row. It is the first of these orders, and it moves no row if the rows are in such an
order already. The equations are then iterated in the order found, each row with its constant. -/
theorem dominantOrder_least (s : System Float n)
    (finite : ∀ i j, (s.coefficients.entry i j).isFinite = true) :
    ((dominantOrder s).isSome = true ↔ ∃ σ, s.Arranges σ) ∧
    ∀ order, dominantOrder s = some order →
      ∃ σ : Equiv.Perm (Fin n), order = .ofFn σ ∧ s.Arranges σ ∧
        (∀ τ, s.Arranges τ → List.ofFn σ ≤ List.ofFn τ) ∧
        (isIdentity order = true ↔ ∀ i, s.Outweighs i i) ∧
        ∀ setup kind, ∃ arranged, (sweepStart setup s kind).ending = .ok arranged ∧
          ∀ i, arranged.equation i = s.equation (σ i) := by
  refine ⟨isSome_dominantOrder_iff finite, fun order found => ?_⟩
  obtain ⟨σ, rfl, arranges⟩ := exists_arranges finite found
  refine ⟨σ, rfl, arranges, fun τ arranges' => ?_, ?_, fun setup kind => ?_⟩
  · have first := dominantOrder_le found (places_of_arranges finite arranges')
    rwa [Vector.toList_ofFn] at first
  · simp only [isIdentity_iff, get_ofFn]
    constructor
    · intro identity i
      have outweighs := arranges i
      rwa [identity] at outweighs
    · intro outweighs i
      have identity : σ = 1 := arranges.unique finite outweighs
      rw [identity]
      rfl
  · refine ⟨_, sweepStart_of_dominantOrder finite found setup kind, fun i => ?_⟩
    rw [System.equation_arrange, get_ofFn]

theorem dominantOrder_least_three :
    let s : System Float 3 := {
      coefficients := #v[#v[1.0, 11.0, -1.0], #v[10.0, -1.0, 2.0], #v[2.0, -1.0, 10.0]]
      constants := #v[25.0, 6.0, -11.0] }
    (∀ i j, (s.coefficients.entry i j).isFinite = true) ∧ dominantOrder s = some #v[1, 0, 2] ∧
      ∃ σ : Equiv.Perm (Fin 3), #v[1, 0, 2] = Vector.ofFn σ ∧ s.Arranges σ ∧
        (∀ τ, s.Arranges τ → List.ofFn σ ≤ List.ofFn τ) ∧
        ∀ setup kind, ∃ arranged, (sweepStart setup s kind).ending = .ok arranged ∧
          ∀ i, arranged.equation i = s.equation (σ i) := by
  intro s
  have finite : ∀ i j, (s.coefficients.entry i j).isFinite = true := by decide +kernel
  have found : dominantOrder s = some #v[1, 0, 2] := by decide +kernel
  obtain ⟨σ, same, arranges, first, -, starts⟩ := (dominantOrder_least s finite).2 _ found
  exact ⟨finite, found, σ, same, arranges, first, starts⟩

end Stepwise.Linear
