import Stepwise.Linear.Solver
import Stepwise.Proofs.Binary64
import Stepwise.Proofs.Except
import Stepwise.Proofs.Linear.Matrix

/-!
# Checked systems

- `checkAll_eq_ok_iff`: a check of a list passes if it passes for each entry
- `System.Flaw`, `System.flaw_of_check`: why a system does not pass the checks
- `ExactImage`: the rational numbers that a system of floats is solved for
- `ExactImage.exists_exact`: such a system passes all checks, and its fractions have these values
-/

namespace Stepwise

/-- Only finite floats become fractions. -/
theorem Fraction.isFinite_of_ofFloat {x : Float} {a : Fraction} (converted : ofFloat x = .ok a) :
    x.isFinite = true := by
  rw [ofFloat] at converted
  split at converted
  next => cases converted
  next whole truncated =>
    exact Binary64.isFinite_of_mul (Binary64.isFinite_of_truncate truncated)

namespace Linear

/-! ## Checking lists -/

section

variable {α β ε : Type}

theorem getElem_prepend_zero {n : ℕ} (b : β) (v : Vector β n) : (prepend b v)[0] = b := by
  simp [prepend]

theorem getElem_prepend_succ {n : ℕ} (b : β) (v : Vector β n) {i : ℕ} (inside : i < n) :
    (prepend b v)[i + 1] = v[i] := by
  simp [prepend]

theorem checkAll_eq_ok_iff {check : ℕ → α → Except ε β} {count : ℕ} {entries : List α}
    {v : Vector β entries.length} :
    checkAll check count entries = .ok v ↔
      ∀ i (inside : i < entries.length), check (count + i) entries[i] = .ok v[i] := by
  -- The rest of a list is counted from the next number, so the count is general.
  induction entries generalizing count with
  | nil =>
    refine ⟨fun _ i inside => absurd inside (Nat.not_lt_zero i), fun _ => ?_⟩
    rw [checkAll, @Vector.eq_empty _ v]
  | cons a rest ih =>
    rw [checkAll]
    constructor
    · intro passed
      split at passed
      next => cases passed
      next b first =>
        split at passed
        next => cases passed
        next w others =>
          obtain rfl := Except.ok.inj passed
          intro i inside
          cases i with
          | zero => exact first
          | succ i =>
            rw [getElem_prepend_succ _ _ (Nat.lt_of_succ_lt_succ inside), ← Nat.add_assoc,
              Nat.add_right_comm]
            exact ih.1 others i (Nat.lt_of_succ_lt_succ inside)
    · intro each
      have first : check count a = .ok v[0] := each 0 (Nat.zero_lt_succ _)
      have others : checkAll check (count + 1) rest = .ok (Vector.ofFn fun i => v[i.val + 1]) := by
        refine ih.2 fun i inside => ?_
        rw [Vector.getElem_ofFn, Nat.add_right_comm, Nat.add_assoc]
        exact each (i + 1) (Nat.succ_lt_succ inside)
      simp only [first, others, Except.ok.injEq]
      ext i inside
      cases i with
      | zero => exact getElem_prepend_zero _ _
      | succ i =>
        rw [getElem_prepend_succ _ _ (Nat.lt_of_succ_lt_succ inside), Vector.getElem_ofFn]

theorem checkVector_eq_ok_iff {n : ℕ} {check : α → Except ε β} {v : Vector α n}
    {w : Vector β n} :
    checkVector check v = .ok w ↔ ∀ i (inside : i < n), check v[i] = .ok w[i] := by
  have length : v.toList.length = n := by simp
  -- A vector is checked as the list of its entries, whose length is only provably `n`.
  have cast : checkVector check v = .ok w ↔
      checkAll (fun _ => check) 1 v.toList = .ok (w.cast length.symm) := by
    rw [checkVector]
    cases checkAll (fun _ => check) 1 v.toList with
    | error e => simp [Except.map]
    | ok u =>
      simp only [Except.map, Except.ok.injEq]
      constructor
      · rintro rfl
        simp
      · rintro rfl
        simp
  rw [cast, checkAll_eq_ok_iff]
  constructor
  · intro each i inside
    have passed := each i (by simpa using inside)
    rwa [Vector.getElem_toList, Vector.getElem_cast] at passed
  · intro each i inside
    rw [Vector.getElem_toList, Vector.getElem_cast]
    exact each i (by simpa using inside)

end

/-! ## Checks that fail -/

section

variable {α β ε : Type} {cause : ε}

/-- The check of a list fails for one of its entries. -/
theorem exists_of_checkAll_eq_error {check : ℕ → α → Except ε β} {count : ℕ} {entries : List α}
    (failed : checkAll check count entries = .error cause) :
    ∃ i, ∃ a ∈ entries, check i a = .error cause := by
  induction entries generalizing count with
  | nil => cases failed
  | cons a rest ih =>
    rw [checkAll] at failed
    split at failed
    next first =>
      cases failed
      exact ⟨count, a, List.mem_cons_self, first⟩
    next =>
      split at failed
      next others =>
        cases failed
        obtain ⟨i, a, inside, refused⟩ := ih others
        exact ⟨i, a, List.mem_cons_of_mem _ inside, refused⟩
      next => cases failed

theorem exists_of_checkVector_eq_error {n : ℕ} {check : α → Except ε β} {v : Vector α n}
    (failed : checkVector check v = .error cause) :
    ∃ i : Fin n, check (v.get i) = .error cause := by
  rw [checkVector, map_eq_error_iff] at failed
  obtain ⟨-, a, inside, refused⟩ := exists_of_checkAll_eq_error failed
  obtain ⟨i, within, rfl⟩ := List.getElem_of_mem inside
  exact ⟨⟨i, by simpa using within⟩, refused⟩

end

/-! ## Checking the parts of a system -/

/-- Floats that are checked for their number and for being finite. -/
theorem checkSized_eq_ok_iff {expected count : ℕ} {refuse : ℕ → Float → Error} {wrong : Error}
    {entries : List Float} {v : Vector Float expected} :
    (if length : entries.length = expected then
        (checkAll (fun i x => if x.isFinite then .ok x else .error (refuse i x)) count entries).map
          (Vector.cast length)
      else .error wrong) = .ok v ↔
      entries.length = expected ∧ ∀ i (_ : i < entries.length) (_ : i < expected),
        entries[i].isFinite = true ∧ v[i] = entries[i] := by
  split
  next length =>
    subst length
    have unchanged (r : Except Error (Vector Float entries.length)) :
        r.map (Vector.cast rfl) = r := by
      cases r <;> rfl
    rw [unchanged, checkAll_eq_ok_iff]
    refine (forall_congr' fun i => forall_congr' fun inside => ?_).trans
      ⟨fun each => ⟨rfl, fun i inside _ => each i inside⟩,
        fun each i inside => each.2 i inside inside⟩
    split
    next finite => simp [finite, eq_comm]
    next infinite => simp [infinite]
  next different => simp [different]

theorem checkRow_eq_ok_iff {expected row : ℕ} {entries : List Float}
    {v : Vector Float expected} :
    checkRow expected row entries = .ok v ↔ entries.length = expected ∧
      ∀ i (_ : i < entries.length) (_ : i < expected),
        entries[i].isFinite = true ∧ v[i] = entries[i] :=
  checkSized_eq_ok_iff

theorem checkConstants_eq_ok_iff {expected : ℕ} {entries : List Float}
    {v : Vector Float expected} :
    checkConstants expected entries = .ok v ↔ entries.length = expected ∧
      ∀ i (_ : i < entries.length) (_ : i < expected),
        entries[i].isFinite = true ∧ v[i] = entries[i] :=
  checkSized_eq_ok_iff

theorem System.check_eq_ok_iff {required : ℕ} {rows : List (List Float)}
    {constants : List Float} {s : System Float rows.length} :
    System.check required rows constants = .ok s ↔
      rows ≠ [] ∧ required ≤ rows.length ∧
        (∀ i (inside : i < rows.length),
          checkRow rows.length (1 + i) rows[i] = .ok s.coefficients[i]) ∧
        checkConstants rows.length constants = .ok s.constants := by
  have square {t : Table Float rows.length rows.length} :
      checkSquare rows = .ok t ↔ rows ≠ [] ∧ ∀ i (inside : i < rows.length),
        checkRow rows.length (1 + i) rows[i] = .ok t[i] := by
    rw [checkSquare]
    split
    next empty => simp [List.isEmpty_iff.1 empty]
    next nonempty => simp [mt List.isEmpty_iff.2 nonempty, checkAll_eq_ok_iff]
  rw [System.check, bind_eq_ok_iff]
  constructor
  · rintro ⟨coefficients, rowsPassed, rest⟩
    obtain ⟨nonempty, eachRow⟩ := square.1 rowsPassed
    split at rest
    next => cases rest
    next enough =>
      obtain ⟨constants, constantsPassed, same⟩ := bind_eq_ok_iff.1 rest
      cases same
      exact ⟨nonempty, not_lt.1 enough, eachRow, constantsPassed⟩
  · rintro ⟨nonempty, enough, eachRow, constantsPassed⟩
    refine ⟨s.coefficients, square.2 ⟨nonempty, eachRow⟩, ?_⟩
    rw [if_neg (not_lt.2 enough)]
    exact bind_eq_ok_iff.2 ⟨_, constantsPassed, rfl⟩

/-- What the checks find wrong with a system. -/
inductive System.Flaw : Error → Prop where
  | empty : Flaw .empty
  | notSquare (row length expected : ℕ) : Flaw (.notSquare row length expected)
  | tooFewEquations (required actual : ℕ) : Flaw (.tooFewEquations required actual)
  | constantsLength (expected actual : ℕ) : Flaw (.constantsLength expected actual)
  | nonFiniteCoefficient (row column : ℕ) (value : Float) :
      Flaw (.nonFiniteCoefficient row column value)
  | nonFiniteConstant (row : ℕ) (value : Float) : Flaw (.nonFiniteConstant row value)

/-- The checks fail for nothing else. -/
theorem System.flaw_of_check {required : ℕ} {rows : List (List Float)} {constants : List Float}
    {cause : Error} (failed : System.check required rows constants = .error cause) :
    System.Flaw cause := by
  have sized {expected : ℕ} {refuse : ℕ → Float → Error} {wrong : Error} {entries : List Float}
      (others : ∀ i x, Flaw (refuse i x)) (length : Flaw wrong)
      (failed : (if length : entries.length = expected then
        (checkAll (fun i x => if x.isFinite then .ok x else .error (refuse i x)) 1 entries).map
          (Vector.cast length)
        else .error wrong : Except Error (Vector Float expected)) = .error cause) :
      Flaw cause := by
    split at failed
    next =>
      obtain ⟨i, x, -, refused⟩ := exists_of_checkAll_eq_error (map_eq_error_iff.1 failed)
      split at refused
      next => cases refused
      next =>
        cases refused
        exact others i x
    next =>
      cases failed
      exact length
  rw [check, bind_eq_error_iff] at failed
  obtain failed | ⟨_, -, failed⟩ := failed
  · rw [checkSquare] at failed
    split at failed
    next =>
      cases failed
      exact .empty
    next =>
      obtain ⟨row, entries, -, refused⟩ := exists_of_checkAll_eq_error failed
      exact sized (fun column x => .nonFiniteCoefficient row column x) (.notSquare ..) refused
  · split at failed
    next =>
      cases failed
      exact .tooFewEquations ..
    next =>
      obtain failed | ⟨_, -, made⟩ := bind_eq_error_iff.1 failed
      · exact sized (fun row x => .nonFiniteConstant row x) (.constantsLength ..) failed
      · cases made

theorem System.exact_eq_ok_iff {n : ℕ} {s : System Float n} {e : System Fraction n} :
    s.exact = .ok e ↔
      (∀ i j, Fraction.ofFloat (s.coefficients.entry i j) = .ok (e.coefficients.entry i j)) ∧
        ∀ i : Fin n, Fraction.ofFloat (s.constants.get i) = .ok (e.constants.get i) := by
  rw [System.exact]
  simp only [bind_eq_ok_iff, checkVector_eq_ok_iff, mapError_eq_ok_iff]
  constructor
  · rintro ⟨coefficients, eachRow, constants, eachConstant, same⟩
    cases same
    exact ⟨fun i j => eachRow i i.isLt j j.isLt, fun i => eachConstant i i.isLt⟩
  · rintro ⟨eachEntry, eachConstant⟩
    exact ⟨e.coefficients, fun i hi j hj => eachEntry ⟨i, hi⟩ ⟨j, hj⟩, e.constants,
      fun i hi => eachConstant ⟨i, hi⟩, rfl⟩

/-! ## Exact images -/

/-- A float is converted to a fraction of this value. -/
def Converts (x : Float) (q : ℚ) : Prop := ∃ a, Fraction.ofFloat x = .ok a ∧ a.value = q

theorem Converts.isFinite {x : Float} {q : ℚ} (converts : Converts x q) : x.isFinite = true := by
  obtain ⟨a, converted, -⟩ := converts
  exact Fraction.isFinite_of_ofFloat converted

variable {n : ℕ}

/-- The rational numbers that a system of floats is solved for. -/
structure ExactImage (a : Matrix (Fin n) (Fin n) Float) (b : Fin n → Float)
    (A : Matrix (Fin n) (Fin n) ℚ) (v : Fin n → ℚ) : Prop where
  coefficients : ∀ i j, Converts (a i j) (A i j)
  constants : ∀ i, Converts (b i) (v i)

/-- The rows of a matrix, as a solver takes them. -/
def listed (a : Matrix (Fin n) (Fin n) Float) : List (List Float) :=
  List.ofFn fun i => List.ofFn (a i)

@[simp] theorem length_listed (a : Matrix (Fin n) (Fin n) Float) : (listed a).length = n := by
  simp [listed]

/-- The system with these coefficients and constants. -/
def System.ofMatrix {α : Type} (a : Matrix (Fin n) (Fin n) α) (b : Fin n → α) : System α n where
  coefficients := .ofFn fun i => .ofFn (a i)
  constants := .ofFn b

@[simp] theorem System.entry_ofMatrix {α : Type} (a : Matrix (Fin n) (Fin n) α) (b : Fin n → α)
    (i j : Fin n) : (ofMatrix a b).coefficients.entry i j = a i j := by
  simp [Table.entry_eq_getElem, ofMatrix]

@[simp] theorem System.get_ofMatrix {α : Type} (a : Matrix (Fin n) (Fin n) α) (b : Fin n → α)
    (i : Fin n) : (ofMatrix a b).constants.get i = b i := by
  simp [ofMatrix]

/-- The listed rows pass all checks if the numbers are finite. The checked system has the number of
the rows as its size, so its indices are cast. -/
theorem System.check_listed {a : Matrix (Fin n) (Fin n) Float} {b : Fin n → Float}
    (size : (listed a).length = n) (nonempty : 0 < n) {required : ℕ} (enough : required ≤ n)
    (coefficients : ∀ i j, (a i j).isFinite = true) (constants : ∀ i, (b i).isFinite = true) :
    System.check required (listed a) (List.ofFn b) = .ok
      (.ofMatrix (a.submatrix (Fin.cast size) (Fin.cast size)) (b ∘ Fin.cast size)) := by
  refine System.check_eq_ok_iff.2 ⟨?_, by rwa [size], ?_, checkConstants_eq_ok_iff.2 ⟨?_, ?_⟩⟩
  · exact List.ne_nil_of_length_pos (by rwa [size])
  · intro i inside
    refine checkRow_eq_ok_iff.2 ⟨by simp [listed], ?_⟩
    intro j _ inside'
    refine ⟨by simpa [listed] using coefficients ⟨i, size ▸ inside⟩ ⟨j, size ▸ inside'⟩, ?_⟩
    simp only [Vector.getElem_ofFn, listed, List.getElem_ofFn, ofMatrix]
    rfl
  · simp
  · intro i _ inside
    refine ⟨by simpa using constants ⟨i, size ▸ inside⟩, ?_⟩
    simp only [Vector.getElem_ofFn, List.getElem_ofFn, ofMatrix]
    rfl

/-- A system in fractions has these values. Its size need not be `n` by definition. -/
structure System.Holds (A : Matrix (Fin n) (Fin n) ℚ) (v : Fin n → ℚ) {m : ℕ}
    (s : System Fraction m) : Prop where
  size : m = n
  matrix : ∀ i j, s.matrix i j = A (i.cast size) (j.cast size)
  vector : ∀ i, s.vector i = v (i.cast size)

/-- A system with an exact image passes all checks. -/
theorem ExactImage.exists_exact {a : Matrix (Fin n) (Fin n) Float} {b : Fin n → Float}
    {A : Matrix (Fin n) (Fin n) ℚ} {v : Fin n → ℚ} (image : ExactImage a b A v)
    (nonempty : 0 < n) {required : ℕ} (enough : required ≤ n) :
    ∃ (s : System Float (listed a).length) (e : System Fraction (listed a).length),
      System.check required (listed a) (List.ofFn b) = .ok s ∧ s.exact = .ok e ∧ e.Holds A v := by
  have size : (listed a).length = n := length_listed a
  choose coefficient converted coefficientValue using image.coefficients
  choose constant converted' constantValue using image.constants
  refine ⟨_, .ofMatrix ((Matrix.of coefficient).submatrix (Fin.cast size) (Fin.cast size))
    (constant ∘ Fin.cast size), System.check_listed size nonempty enough ?_ ?_, ?_, ⟨size, ?_, ?_⟩⟩
  · exact fun i j => (image.coefficients i j).isFinite
  · exact fun i => (image.constants i).isFinite
  · refine System.exact_eq_ok_iff.2 ⟨fun i j => ?_, fun i => ?_⟩
    · simpa using converted (i.cast size) (j.cast size)
    · simpa using converted' (i.cast size)
  · intro i j
    simpa [System.matrix, Table.matrix_apply] using coefficientValue (i.cast size) (j.cast size)
  · intro i
    simpa [System.vector] using constantValue (i.cast size)

end Linear

end Stepwise
