import Stepwise.Proofs.Linear.Sweep

/-!
# Equations in another order

- `Engine.Agrees`: two solutions that come to the same
- `sweepStart_reordered`: both orders of the equations lead to the same arrangement
- `solve_reordered`: so the iterative methods do not depend on the order
-/

namespace Stepwise.Linear

variable {n : ℕ} {s t : System Float n} {σ τ : Equiv.Perm (Fin n)}

/-! ## Agreement -/

/-- Two reports with the same passes, result and answers. -/
structure Report.Agrees {α : Type} (r r' : Report α) : Prop where
  iterations : r.iterations = r'.iterations
  result : r.result = r'.result
  answers : r.transcript.answers = r'.transcript.answers

/-- The steps may differ. -/
theorem Report.agrees_conclude {α : Type} (title : String) (steps steps' : List String)
    (iterations : List (List Float)) (result : Except Error (Solution α))
    (answers : List String) :
    (conclude title steps iterations result answers).Agrees
      (conclude title steps' iterations result answers) := by
  cases result <;> exact ⟨rfl, rfl, rfl⟩

/-- Two solutions that come to the same, whatever steps they have written. -/
structure Engine.Agrees {method : Method} (r r' : Outcome × Engine method) : Prop where
  outcome : r.1 = r'.1
  iterations : r.2.iterations = r'.2.iterations
  solution : r.2.solution = r'.2.solution
  answers : r.2.transcript.answers = r'.2.transcript.answers
  error : r.2.error? = r'.2.error?

theorem Engine.Agrees.refl {method : Method} (r : Outcome × Engine method) : Agrees r r :=
  ⟨rfl, rfl, rfl, rfl, rfl⟩

theorem Report.Agrees.showing {method : Method} {r r' : Report method.Value} (agrees : r.Agrees r')
    (e : Engine method) :
    Engine.Agrees (r.outcome, e.showing r) (r'.outcome, e.showing r') where
  outcome := by rw [Report.outcome, Report.outcome, agrees.result]
  iterations := agrees.iterations
  solution := by
    change r.solution = r'.solution
    rw [Report.solution, Report.solution, agrees.result]
  answers := agrees.answers
  error := by
    change r.error? = r'.error?
    rw [Report.error?, Report.error?, agrees.result]

/-! ## The same arrangement -/

theorem outweighs_reordered (reordered : ∀ i, t.equation i = s.equation (σ i)) {i j : Fin n} :
    t.Outweighs i j ↔ s.Outweighs (σ i) j := by
  have row : t.coefficients.get i = s.coefficients.get (σ i) := congrArg Prod.fst (reordered i)
  rw [System.Outweighs, System.Outweighs, rowTotal, rowTotal, Table.entry, Table.entry, row]

theorem arranges_reordered (reordered : ∀ i, t.equation i = s.equation (σ i)) :
    t.Arranges τ ↔ s.Arranges (σ * τ) :=
  forall_congr' fun _ => outweighs_reordered reordered

theorem finite_reordered (finite : ∀ i j, (s.coefficients.entry i j).isFinite = true)
    (reordered : ∀ i, t.equation i = s.equation (σ i)) (i j : Fin n) :
    (t.coefficients.entry i j).isFinite = true := by
  have row : t.coefficients.get i = s.coefficients.get (σ i) := congrArg Prod.fst (reordered i)
  have entry := finite (σ i) j
  rwa [Table.entry, ← row] at entry

theorem equation_submatrix (a : Matrix (Fin n) (Fin n) Float) (b : Fin n → Float)
    (σ : Equiv.Perm (Fin n)) (i : Fin n) :
    (System.ofMatrix (a.submatrix σ id) (b ∘ σ)).equation i =
      (System.ofMatrix a b).equation (σ i) := by
  simp only [System.equation, System.ofMatrix, get_ofFn]
  rfl

/-- There is only one order that dominates, so it is found wherever the equations stand. -/
theorem sweepStart_reordered (finite : ∀ i j, (s.coefficients.entry i j).isFinite = true)
    (some : (dominantOrder s).isSome = true)
    (reordered : ∀ i, t.equation i = s.equation (σ i)) (setup : Setup) (kind : Sweep) :
    ∃ arranged, (sweepStart setup s kind).ending = .ok arranged ∧
      (sweepStart setup t kind).ending = .ok arranged := by
  have finite' := finite_reordered finite reordered
  obtain ⟨order, found⟩ := Option.isSome_iff_exists.1 some
  obtain ⟨τ, rfl, arranges⟩ := exists_arranges finite found
  have some' : (dominantOrder t).isSome = true := by
    refine (isSome_dominantOrder_iff finite').2 ⟨σ⁻¹ * τ, (arranges_reordered reordered).2 ?_⟩
    rwa [mul_inv_cancel_left]
  obtain ⟨order', found'⟩ := Option.isSome_iff_exists.1 some'
  obtain ⟨τ', rfl, arranges'⟩ := exists_arranges finite' found'
  have same : σ * τ' = τ := ((arranges_reordered reordered).1 arranges').unique finite arranges
  refine ⟨_, sweepStart_of_dominantOrder finite found setup kind, ?_⟩
  rw [sweepStart_of_dominantOrder finite' found' setup kind]
  refine congrArg Except.ok (System.ext_equation fun i => ?_)
  rw [System.equation_arrange, System.equation_arrange, get_ofFn, get_ofFn, reordered, ← same]
  rfl

/-! ## The same solution -/

theorem sweep_agrees {title : String} {setup : Setup} {kind : Sweep} {arranged : System Float n}
    (start : (sweepStart setup s kind).ending = .ok arranged)
    (start' : (sweepStart setup t kind).ending = .ok arranged) :
    (sweep title setup s kind).Agrees (sweep title setup t kind) := by
  rw [sweep, sweep, start, start']
  exact Report.agrees_conclude _ _ _ _ _ _

theorem report_agrees {setup : Setup} {kind : Sweep} {arranged : System Float n}
    (start : (sweepStart setup s kind).ending = .ok arranged)
    (start' : (sweepStart setup t kind).ending = .ok arranged) :
    (kind.report setup s).Agrees (kind.report setup t) := by
  cases kind with
  | jacobi => exact sweep_agrees start start'
  | gaussSeidel => exact sweep_agrees start start'

/-- If there is an order of the equations in which they dominate, then the iterative methods come to
the same in every order of the equations, with whatever tolerance. -/
theorem solve_reordered (kind : Sweep) (e : Engine kind.method) (a : Matrix (Fin n) (Fin n) Float)
    (b : Fin n → Float) (σ : Equiv.Perm (Fin n)) (tolerance? : Option Float)
    (coefficients : ∀ i j, (a i j).isFinite = true) (constants : ∀ i, (b i).isFinite = true)
    (some : (dominantOrder (.ofMatrix a b)).isSome = true) :
    Engine.Agrees (e.solve (listed (a.submatrix σ id)) (List.ofFn (b ∘ σ)) tolerance?)
      (e.solve (listed a) (List.ofFn b) tolerance?) := by
  have reports (setup : Setup) :
      (kind.method.report setup (listed (a.submatrix σ id)) (List.ofFn (b ∘ σ))).Agrees
        (kind.method.report setup (listed a) (List.ofFn b)) := by
    obtain rfl | nonempty := n.eq_zero_or_pos
    · rw [listed, listed, List.ofFn_zero, List.ofFn_zero, List.ofFn_zero, List.ofFn_zero]
      exact ⟨rfl, rfl, rfl⟩
    · have finite (i j : Fin n) :
          ((System.ofMatrix a b).coefficients.entry i j).isFinite = true := by
        rw [System.entry_ofMatrix]
        exact coefficients i j
      obtain ⟨arranged, start, start'⟩ :=
        sweepStart_reordered finite some (equation_submatrix a b σ) setup kind
      have reordered : kind.method.report setup (listed (a.submatrix σ id)) (List.ofFn (b ∘ σ)) =
          kind.report setup (.ofMatrix (a.submatrix σ id) (b ∘ σ)) :=
        Sweep.report_listed nonempty (fun i => coefficients (σ i)) fun i => constants (σ i)
      rw [Sweep.report_listed nonempty coefficients constants, reordered]
      exact report_agrees start' start
  cases accepted : tolerance?.all isTolerance with
  | true =>
    rw [Engine.solve_of_all_accepted accepted, Engine.solve_of_all_accepted accepted]
    exact (reports _).showing _
  | false =>
    cases tolerance? with
    | none => cases accepted
    | some tolerance =>
      rw [Engine.solve_of_refused accepted, Engine.solve_of_refused accepted]
      exact .refl _

theorem solve_reordered_three :
    let a : Matrix (Fin 3) (Fin 3) Float := !![10.0, -1.0, 2.0; 1.0, 11.0, -1.0; 2.0, -1.0, 10.0]
    let b : Fin 3 → Float := ![6.0, 25.0, -11.0]
    let e : Engine Sweep.gaussSeidel.method := .make {}
    (∀ i j, (a i j).isFinite = true) ∧ (∀ i, (b i).isFinite = true) ∧
      (dominantOrder (.ofMatrix a b)).isSome = true ∧
      Engine.Agrees
        (e.solve (listed (a.submatrix (Equiv.swap 0 1) id)) (List.ofFn (b ∘ Equiv.swap 0 1)) none)
        (e.solve (listed a) (List.ofFn b) none) := by
  intro a b e
  have coefficients : ∀ i j, (a i j).isFinite = true := by decide +kernel
  have constants : ∀ i, (b i).isFinite = true := by decide +kernel
  have some : (dominantOrder (.ofMatrix a b)).isSome = true := by decide +kernel
  exact ⟨coefficients, constants, some,
    solve_reordered .gaussSeidel e a b (Equiv.swap 0 1) none coefficients constants some⟩

end Stepwise.Linear
