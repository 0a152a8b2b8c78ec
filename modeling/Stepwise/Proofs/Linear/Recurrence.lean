import Stepwise.Proofs.Linear.Coherence
import Stepwise.Proofs.Linear.Sweep

/-!
# The iterative methods as recurrences

- `System.Iterates`: the vectors that a method is said to go through, of which there is one sequence
- `get_result_pass`: a pass that changes one unknown after another makes the next of these vectors
- `Converges`, `Diverges`: in which pass an iteration comes to its end
- `solve_follows`: a solution goes through the vectors up to there
-/

namespace Stepwise.Linear

variable {n : ℕ} {s : System Float n} {kind : Sweep}

/-! ## The recurrence -/

/-- Solves an equation for its unknown on the diagonal, given numbers for the others. -/
def System.solved (s : System Float n) (y : Fin n → Float) (i : Fin n) : Float :=
  let terms := (others i).map fun j => s.coefficients.entry i j * y j
  (s.constants.get i - terms.foldl (· + ·) 0.0) / s.coefficients.entry i i

/-- The numbers that a method knows when it comes to an unknown. -/
def Sweep.known (kind : Sweep) (old new : Fin n → Float) (i j : Fin n) : Float :=
  match kind with
  | .jacobi => old j
  | .gaussSeidel => if j < i then new j else old j

/-- From zero, each vector solves the equations for what is known by then. -/
structure System.Iterates (s : System Float n) (kind : Sweep) (x : ℕ → Fin n → Float) : Prop where
  zero : ∀ i, x 0 i = 0.0
  succ : ∀ k i, x (k + 1) i = s.solved (kind.known (x k) (x (k + 1)) i) i

theorem System.component_eq_solved (source : Vector Float n) (i : Fin n) :
    s.component source i = s.solved source.get i := by
  rw [component, solved, List.foldl_map]

theorem System.solved_congr {y y' : Fin n → Float} {i : Fin n} (same : ∀ j, j ≠ i → y j = y' j) :
    s.solved y i = s.solved y' i := by
  have terms : ((others i).map fun j => s.coefficients.entry i j * y j) =
      (others i).map fun j => s.coefficients.entry i j * y' j :=
    List.map_congr_left fun j mem => by rw [same j (mem_others.1 mem)]
  rw [solved, solved, terms]

theorem Sweep.known_congr {old old' new new' : Fin n → Float} {i j : Fin n} (before : old j = old' j)
    (now : j < i → new j = new' j) : kind.known old new i j = kind.known old' new' i j := by
  cases kind with
  | jacobi => exact before
  | gaussSeidel =>
    rw [known, known]
    split
    next earlier => exact now earlier
    next => exact before

/-- No two sequences satisfy the recurrence. -/
theorem System.Iterates.unique {x x' : ℕ → Fin n → Float} (first : s.Iterates kind x)
    (second : s.Iterates kind x') : x = x' := by
  have same (k : ℕ) : ∀ i, x k i = x' k i := by
    induction k with
    | zero => exact fun i => by rw [first.zero, second.zero]
    | succ k ih =>
      -- Within a pass, an unknown depends on those before it.
      intro i
      induction i using WellFoundedLT.induction with
      | ind i earlier =>
        rw [first.succ, second.succ]
        exact solved_congr fun j _ => Sweep.known_congr (ih j) (earlier j)
  exact funext fun k => funext (same k)

/-! ## Passes -/

theorem get_set_self {row : Fin n} {current : Vector Float n} {value : Float} :
    (current.set row value row.isLt).get row = value :=
  Vector.getElem_set_self row.isLt

theorem get_set_of_ne {row i : Fin n} {current : Vector Float n} {value : Float} (other : i ≠ row) :
    (current.set row value row.isLt).get i = current.get i :=
  Vector.getElem_set_ne row.isLt i.isLt fun same => other (Fin.ext same.symm)

theorem get_updateFrom_of_notMem {previous current : Vector Float n} {rows : List (Fin n)}
    {i : Fin n} (notMem : i ∉ rows) :
    (updateFrom s kind previous rows current).2.get i = current.get i := by
  induction rows generalizing current with
  | nil => rfl
  | cons row rows ih =>
    rw [List.mem_cons, not_or] at notMem
    obtain ⟨other, notMem⟩ := notMem
    rw [updateFrom, ih notMem, get_set_of_ne other]

/-- Unknowns that are updated in ascending order read those before them in the result. -/
theorem get_updateFrom_of_mem {previous : Vector Float n} {rows : List (Fin n)} {i : Fin n}
    (sorted : rows.Pairwise (· < ·)) (mem : i ∈ rows) (current : Vector Float n) :
    let result := (updateFrom s kind previous rows current).2
    result.get i = s.solved (kind.known (kind.source previous current).get result.get i) i := by
  induction rows generalizing current with
  | nil => exact absurd mem List.not_mem_nil
  | cons row rows ih =>
    obtain ⟨after, sorted⟩ := List.pairwise_cons.1 sorted
    dsimp only [updateFrom]
    obtain rfl | later := List.mem_cons.1 mem
    · have notAgain : i ∉ rows := fun again => lt_irrefl i (after i again)
      rw [get_updateFrom_of_notMem notAgain, get_set_self, System.component_eq_solved]
      refine System.solved_congr fun j other => ?_
      cases kind with
      | jacobi => rfl
      | gaussSeidel =>
        rw [Sweep.known]
        split
        next earlier =>
          have unchanged : j ∉ rows := fun mem => lt_asymm earlier (after j mem)
          rw [get_updateFrom_of_notMem unchanged, get_set_of_ne other]
          rfl
        next => rfl
    · rw [ih sorted later (current.set row _)]
      refine System.solved_congr fun j other => ?_
      cases kind with
      | jacobi => rfl
      | gaussSeidel =>
        rw [Sweep.known, Sweep.known]
        split
        next => rfl
        next notEarlier =>
          have beyond : row < j := (after i later).trans_le (not_lt.1 notEarlier)
          exact get_set_of_ne beyond.ne'

/-- A pass makes the next vector of the recurrence. -/
theorem get_result_pass (s : System Float n) (kind : Sweep) (previous : Vector Float n)
    (i : Fin n) :
    let result := (pass s kind previous).result
    result.get i = s.solved (kind.known previous.get result.get i) i := by
  have source : kind.source previous previous = previous := by cases kind <;> rfl
  dsimp only [pass]
  rw [get_updateFrom_of_mem (List.pairwise_lt_finRange n) (List.mem_finRange i), source]

/-- The vector after each pass. -/
def vectorAfter (s : System Float n) (kind : Sweep) : ℕ → Vector Float n
  | 0 => .replicate n 0.0
  | k + 1 => (pass s kind (vectorAfter s kind k)).result

/-- The vectors as functions. -/
def System.iterate (s : System Float n) (kind : Sweep) (k : ℕ) : Fin n → Float :=
  (vectorAfter s kind k).get

theorem iterates_iterate (s : System Float n) (kind : Sweep) :
    s.Iterates kind (s.iterate kind) where
  zero i := Vector.getElem_replicate i.isLt
  succ k i := get_result_pass s kind (vectorAfter s kind k) i

/-! ## Where an iteration ends -/

section

variable {tolerance : Float} {x : ℕ → Fin n → Float} {m p : ℕ}

/-- No unknown moves by more than the tolerance in a pass. -/
def Settles (tolerance : Float) (x : ℕ → Fin n → Float) (p : ℕ) : Prop :=
  ∀ i, (x p i - x (p - 1) i).abs ≤ tolerance

/-- All unknowns are finite after a pass. -/
def IsFinite (x : ℕ → Fin n → Float) (p : ℕ) : Prop := ∀ i, (x p i).isFinite = true

/-- The first pass that settles the matter, all unknowns being finite up to there. -/
structure Converges (tolerance : Float) (x : ℕ → Fin n → Float) (p : ℕ) : Prop where
  pos : 1 ≤ p
  within : p ≤ 1000
  settles : Settles tolerance x p
  first : ∀ q, 1 ≤ q → q < p → ¬ Settles tolerance x q
  finite : ∀ q, 1 ≤ q → q ≤ p → IsFinite x q

/-- The first pass after which an unknown is not finite, none before it having settled the matter. -/
structure Diverges (tolerance : Float) (x : ℕ → Fin n → Float) (p : ℕ) : Prop where
  pos : 1 ≤ p
  within : p ≤ 1000
  infinite : ¬ IsFinite x p
  first : ∀ q, 1 ≤ q → q < p → IsFinite x q
  unsettled : ∀ q, 1 ≤ q → q < p → ¬ Settles tolerance x q

/-- The vectors of the first passes. -/
def vectors (x : ℕ → Fin n → Float) (m : ℕ) : List (List Float) :=
  (List.range m).map fun k => List.ofFn (x (k + 1))

theorem vectors_succ : vectors x (m + 1) = vectors x m ++ [List.ofFn (x (m + 1))] := by
  rw [vectors, List.range_succ, List.map_append]
  rfl

@[simp] theorem length_vectors : (vectors x m).length = m := by simp [vectors]

/-- What is said of a solution that goes through the vectors up to the pass that ends it. -/
structure Follows (tolerance : Float) (x : ℕ → Fin n → Float) (outcome : Outcome)
    (passes : List (List Float)) (error? : Option Error) : Prop where
  recorded : passes = vectors x passes.length
  converged : ∀ p, outcome = .converged ∧ passes.length = p ↔ Converges tolerance x p
  diverged : ∀ p, outcome = .failed ∧ error? = some (.diverged p) ↔ Diverges tolerance x p
  abandoned : ∀ p, error? = some (.diverged p) → passes.length + 1 = p
  exhausted : (∀ p, ¬ Converges tolerance x p ∧ ¬ Diverges tolerance x p) →
    outcome = .exhausted ∧ passes.length = 1000

/-- All passes up to this one leave the matter open. -/
def StaysOpen (tolerance : Float) (x : ℕ → Fin n → Float) (m : ℕ) : Prop :=
  ∀ q, 1 ≤ q → q ≤ m → IsFinite x q ∧ ¬ Settles tolerance x q

theorem StaysOpen.converges (stays : StaysOpen tolerance x m) (within : m < 1000)
    (finite : IsFinite x (m + 1)) (settles : Settles tolerance x (m + 1)) :
    Converges tolerance x (m + 1) where
  pos := Nat.le_add_left 1 m
  within := within
  settles := settles
  first q pos before := (stays q pos (Nat.le_of_lt_succ before)).2
  finite q pos upTo := by
    obtain before | rfl := Nat.le_succ_iff.1 upTo
    · exact (stays q pos before).1
    · exact finite

theorem StaysOpen.diverges (stays : StaysOpen tolerance x m) (within : m < 1000)
    (infinite : ¬ IsFinite x (m + 1)) : Diverges tolerance x (m + 1) where
  pos := Nat.le_add_left 1 m
  within := within
  infinite := infinite
  first q pos before := (stays q pos (Nat.le_of_lt_succ before)).1
  unsettled q pos before := (stays q pos (Nat.le_of_lt_succ before)).2

/-- The first pass that does not leave the matter open. -/
structure EndsIn (tolerance : Float) (x : ℕ → Fin n → Float) (p : ℕ) : Prop where
  pos : 1 ≤ p
  before : StaysOpen tolerance x (p - 1)
  ends : ¬ StaysOpen tolerance x p

theorem Converges.endsIn (converges : Converges tolerance x p) : EndsIn tolerance x p where
  pos := converges.pos
  before q pos upTo :=
    have earlier : q < p := Nat.lt_of_le_pred converges.pos upTo
    ⟨converges.finite q pos earlier.le, converges.first q pos earlier⟩
  ends stays := (stays p converges.pos le_rfl).2 converges.settles

theorem Diverges.endsIn (diverges : Diverges tolerance x p) : EndsIn tolerance x p where
  pos := diverges.pos
  before q pos upTo :=
    have earlier : q < p := Nat.lt_of_le_pred diverges.pos upTo
    ⟨diverges.first q pos earlier, diverges.unsettled q pos earlier⟩
  ends stays := diverges.infinite (stays p diverges.pos le_rfl).1

theorem StaysOpen.lt_of_endsIn (stays : StaysOpen tolerance x m) (endsIn : EndsIn tolerance x p) :
    m < p := by
  by_contra notBefore
  exact endsIn.ends fun q pos upTo => stays q pos (upTo.trans (not_lt.1 notBefore))

theorem EndsIn.unique {p' : ℕ} (first : EndsIn tolerance x p) (second : EndsIn tolerance x p') :
    p = p' := by
  have notAfter := second.before.lt_of_endsIn first
  have notBefore := first.before.lt_of_endsIn second
  have := first.pos
  have := second.pos
  omega

theorem Converges.not_diverges {p' : ℕ} (converges : Converges tolerance x p) :
    ¬ Diverges tolerance x p' := by
  intro diverges
  obtain rfl := converges.endsIn.unique diverges.endsIn
  exact diverges.infinite (converges.finite p converges.pos le_rfl)

theorem Converges.follows (converges : Converges tolerance x m) :
    Follows tolerance x .converged (vectors x m) none where
  recorded := by rw [length_vectors]
  converged p := by
    rw [length_vectors]
    constructor
    · rintro ⟨-, rfl⟩
      exact converges
    · exact fun again => ⟨rfl, converges.endsIn.unique again.endsIn⟩
  diverged p := ⟨nofun, fun diverges => absurd diverges converges.not_diverges⟩
  abandoned p := nofun
  exhausted neither := absurd converges (neither m).1

theorem Diverges.follows (diverges : Diverges tolerance x (m + 1)) :
    Follows tolerance x .failed (vectors x m) (some (.diverged (m + 1))) where
  recorded := by rw [length_vectors]
  converged p := ⟨nofun, fun converges => absurd diverges converges.not_diverges⟩
  diverged p := by
    constructor
    · rintro ⟨-, same⟩
      cases same
      exact diverges
    · intro again
      rw [diverges.endsIn.unique again.endsIn]
      exact ⟨rfl, rfl⟩
  abandoned p same := by
    cases same
    rw [length_vectors]
  exhausted neither := absurd diverges (neither _).2

theorem StaysOpen.follows (stays : StaysOpen tolerance x 1000) :
    Follows tolerance x .exhausted (vectors x 1000) none where
  recorded := by rw [length_vectors]
  converged p := ⟨nofun, fun converges =>
    absurd converges.within (stays.lt_of_endsIn converges.endsIn).not_ge⟩
  diverged p := ⟨nofun, fun diverges =>
    absurd diverges.within (stays.lt_of_endsIn diverges.endsIn).not_ge⟩
  abandoned p := nofun
  exhausted _ := ⟨rfl, length_vectors⟩

end

/-! ## The run -/

section

variable {setup : Setup} {count k : ℕ} {final : Vector Float n} {steps : List (Pass n)}

theorem isFinite_pass_iff :
    (pass s kind (vectorAfter s kind k)).isFinite = true ↔ IsFinite (s.iterate kind) (k + 1) := by
  rw [Pass.isFinite, toList_eq_ofFn_get, List.all_eq_true, List.forall_mem_ofFn_iff]
  rfl

theorem isSettled_pass_iff {tolerance : Float} :
    (pass s kind (vectorAfter s kind k)).isSettled tolerance = true ↔
      Settles tolerance (s.iterate kind) (k + 1) := by
  have pairs (f g : Fin n → Float) :
      (List.ofFn f).zip (List.ofFn g) = List.ofFn fun i => (f i, g i) :=
    List.ext_getElem (by simp) (by simp)
  rw [Pass.isSettled, toList_eq_ofFn_get, toList_eq_ofFn_get, pairs, List.all_eq_true,
    List.forall_mem_ofFn_iff]
  simp only [decide_eq_true_eq]
  rfl

/-- Steps from one of the vectors are the passes to the next ones, which leave the matter open. -/
theorem iterate_of_path
    (path : (sweepScheme setup s kind).Path count (vectorAfter s kind k) steps final) :
    final = vectorAfter s kind (k + steps.length) ∧
      (steps.map fun p => p.result.toList) =
        (List.range' k steps.length).map (fun j => List.ofFn (s.iterate kind (j + 1))) ∧
      ∀ q, k < q → q ≤ k + steps.length →
        IsFinite (s.iterate kind) q ∧ ¬ Settles setup.tolerance (s.iterate kind) q := by
  generalize start : vectorAfter s kind k = state at path
  induction path generalizing k with
  | nil => exact ⟨start.symm, rfl, fun q beyond upTo => absurd beyond (not_lt.2 upTo)⟩
  | @cons count state final step steps made unsettled later ih =>
    subst start
    obtain ⟨rfl, finite⟩ := attempt_eq_ok_iff.1 made
    obtain ⟨last, mapped, stays⟩ := ih (k := k + 1) rfl
    have number : k + 1 + steps.length = k + (steps.length + 1) := by omega
    rw [number] at last stays
    refine ⟨last, ?_, fun q beyond upTo => ?_⟩
    · rw [List.map_cons, mapped, List.length_cons, List.range'_succ, List.map_cons,
        toList_eq_ofFn_get]
      rfl
    · obtain next | rfl := lt_or_eq_of_le (Nat.succ_le_of_lt beyond)
      · exact stays q next upTo
      · refine ⟨isFinite_pass_iff.1 finite, fun settles => ?_⟩
        exact absurd (isSettled_pass_iff.2 settles) (Bool.eq_false_iff.1 unsettled)

theorem vectors_of_path
    (path : (sweepScheme setup s kind).Path count (.replicate n 0.0) steps final) :
    final = vectorAfter s kind steps.length ∧
      (steps.map fun p => p.result.toList) = vectors (s.iterate kind) steps.length ∧
      StaysOpen setup.tolerance (s.iterate kind) steps.length := by
  obtain ⟨last, mapped, stays⟩ := iterate_of_path (k := 0) path
  rw [Nat.zero_add] at last stays
  rw [← List.range_eq_range'] at mapped
  exact ⟨last, mapped, stays⟩

/-- A run from zero goes through the vectors, up to the pass that ends it. -/
theorem follows_sweep {title : String} {arranged : System Float n}
    (start : (sweepStart setup s kind).ending = .ok arranged) :
    let r := sweep title setup s kind
    Follows setup.tolerance (arranged.iterate kind) r.outcome r.iterations r.error? := by
  rw [sweep, start]
  dsimp only
  have goes := (sweepScheme setup arranged kind).goes_run maxPasses (Vector.replicate n 0.0)
  generalize (sweepScheme setup arranged kind).run maxPasses _ = run at goes
  rw [Report.outcome, Report.error?, Report.result_conclude, Report.iterations_conclude]
  cases goes with
  | settled path made settles within =>
    obtain ⟨rfl, mapped, stays⟩ := vectors_of_path path
    obtain ⟨rfl, finite⟩ := attempt_eq_ok_iff.1 made
    have converges := stays.converges within (isFinite_pass_iff.1 finite)
      (isSettled_pass_iff.1 settles)
    rw [List.map_append, mapped, List.map_singleton, toList_eq_ofFn_get]
    have follows := converges.follows
    rw [vectors_succ] at follows
    exact follows
  | exhausted path all =>
    obtain ⟨rfl, mapped, stays⟩ := vectors_of_path path
    rw [mapped, all]
    rw [all] at stays
    exact stays.follows
  | interrupted path failed within =>
    obtain ⟨rfl, mapped, stays⟩ := vectors_of_path path
    obtain ⟨rfl, infinite⟩ := attempt_eq_error_iff.1 failed
    have diverges := stays.diverges within fun finite =>
      absurd (isFinite_pass_iff.2 finite) (Bool.eq_false_iff.1 infinite)
    rw [mapped, Nat.add_comm 1]
    exact diverges.follows

end

/-! ## Solutions -/

theorem Sweep.follows_report {setup : Setup} {arranged : System Float n}
    (start : (sweepStart setup s kind).ending = .ok arranged) :
    let r := kind.report setup s
    Follows setup.tolerance (arranged.iterate kind) r.outcome r.iterations r.error? := by
  cases kind with
  | jacobi => exact follows_sweep start
  | gaussSeidel => exact follows_sweep start

/-- On a system that has passed the checks, with no zero on the diagonal in the order in which it is
iterated, the iterative methods go through the one sequence that satisfies their recurrence, and end
where it settles, where it is no longer finite, or after 1000 passes. -/
theorem solve_follows (kind : Sweep) (e : Engine kind.method) (rows : List (List Float))
    (constants : List Float) (s : System Float rows.length) (tolerance? : Option Float)
    (checked : System.check 1 rows constants = .ok s)
    (regular : ∀ i, (s.arranged.coefficients.entry i i == 0.0) = false)
    (accepted : tolerance?.all isTolerance = true) :
    ∃ x, s.arranged.Iterates kind x ∧ (∀ x', s.arranged.Iterates kind x' → x' = x) ∧
      let r := e.solve rows constants tolerance?
      Follows r.2.settings.tolerance x r.1 r.2.iterations r.2.error? := by
  refine ⟨s.arranged.iterate kind, iterates_iterate _ _, fun _ other =>
    other.unique (iterates_iterate _ _), ?_⟩
  rw [Engine.solve_of_all_accepted accepted]
  dsimp only
  rw [Sweep.report_of_checked checked]
  have start := sweepStart_of_regular regular (e.opened tolerance?).setup kind
  exact Sweep.follows_report start

theorem solve_follows_two :
    let rows : List (List Float) := [[4.0, 1.0], [2.0, 3.0]]
    let constants : List Float := [1.0, 2.0]
    let s : System Float 2 := {
      coefficients := #v[#v[4.0, 1.0], #v[2.0, 3.0]]
      constants := #v[1.0, 2.0] }
    let e : Engine Sweep.gaussSeidel.method := .make {}
    System.check 1 rows constants = .ok s ∧
      (∀ i, (s.arranged.coefficients.entry i i == 0.0) = false) ∧
      (some 0.5).all isTolerance = true ∧
      ∃ x, s.arranged.Iterates .gaussSeidel x ∧
        (∀ x', s.arranged.Iterates .gaussSeidel x' → x' = x) ∧
        let r := e.solve rows constants (some 0.5)
        Follows r.2.settings.tolerance x r.1 r.2.iterations r.2.error? := by
  intro rows constants s e
  have checked : System.check 1 rows constants = .ok s := rfl
  have regular : ∀ i, (s.arranged.coefficients.entry i i == 0.0) = false := by decide +kernel
  have accepted : (some 0.5).all isTolerance = true := by decide +kernel
  exact ⟨checked, regular, accepted,
    solve_follows .gaussSeidel e rows constants s (some 0.5) checked regular accepted⟩

end Stepwise.Linear
