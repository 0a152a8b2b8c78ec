import Stepwise.Proofs.Root.Coherence

/-!
# The course of a search

- `Rule.states`, `Rule.steps`, `Rule.final?`: the states of a search, its steps, and the state that
  is left when it is not settled
- `Rule.iterations_report`, `Rule.root?_report`: how the report follows from them
- `Rule.converged_of_ranked`: searches that converge in time
- `attempt_bracketing`, `mem_steps_bracketing`: what a step of a bracketing method is
-/

namespace Stepwise.Root

variable {ε σ β : Type} {p : Problem ε}

namespace Rule

variable (rule : Rule σ β ε) (p : Problem ε) (start : Trail String (Error ε) σ)

/-- The states of a search in order: the one that each iteration starts from, and the one that is
left when all iterations allowed are made. A search that fails before the first has none. -/
def states : List σ :=
  match start.ending with
  | .error _ => []
  | .ok state => rule.toScheme.states p.settings.maxIterations state

/-- The completed steps of a search. -/
def steps : List β :=
  match start.ending with
  | .error _ => []
  | .ok state => (rule.run p.settings.maxIterations state).steps

/-- The state that is left when the iterations allowed do not settle a search. -/
def final? : Option σ :=
  match start.ending with
  | .error _ => none
  | .ok state =>
    match (rule.run p.settings.maxIterations state).ending with
    | .exhausted final => some final
    | _ => none

variable {rule p start}

theorem mem_final?_iff {final : σ} : final ∈ rule.final? p start ↔
    ∃ state, start.ending = .ok state ∧
      (rule.run p.settings.maxIterations state).ending = .exhausted final := by
  rw [final?]
  cases started : start.ending with
  | error e => simp
  | ok state => cases ended : (rule.run p.settings.maxIterations state).ending <;> simp [ended]

theorem iterations_report [ToString ε] {title : String} :
    (rule.report p title start).iterations = (rule.steps p start).map rule.estimate := by
  rw [report, steps]
  cases start.ending with
  | error e => rfl
  | ok state =>
    dsimp only [Report.conclude]
    split <;> rfl

/-- The root is the estimate that settled the search, or the best one in the state that is left. -/
theorem root?_report [ToString ε] {title : String} {x : Float}
    (found : (rule.report p title start).root? = some x) :
    (∃ step ∈ rule.steps p start, rule.settles step = true ∧ rule.estimate step = x) ∨
      ∃ final ∈ rule.final? p start, rule.best final = x := by
  rw [report] at found
  rw [steps, final?]
  cases started : start.ending with
  | error e => simp [started, Report.conclude, Report.root?] at found
  | ok state =>
    simp only [started] at found ⊢
    have goes := rule.goes_run p.settings.maxIterations state
    generalize rule.run p.settings.maxIterations state = run at found goes
    cases goes with
    | @settled steps _ last _ _ settles _ =>
      refine .inl ⟨last, List.mem_concat_self, settles, ?_⟩
      simpa [finding, Report.conclude, Report.root?] using found
    | @exhausted _ final _ _ =>
      refine .inr ⟨final, rfl, ?_⟩
      simpa [finding, Report.conclude, Report.root?] using found
    | interrupted _ _ _ => simp [finding, Report.conclude, Report.root?] at found

theorem root?_report_of_final [ToString ε] {title : String} {final : σ}
    (left : final ∈ rule.final? p start) :
    (rule.report p title start).root? = some (rule.best final) := by
  obtain ⟨state, started, ended⟩ := mem_final?_iff.1 left
  simp [report, started, finding, ended, Report.conclude, Report.root?]

theorem exists_state_of_mem_steps {step : β} (mem : step ∈ rule.steps p start) :
    ∃ number, ∃ s ∈ rule.states p start, rule.attempt number s = .ok step ∧
      (rule.settles step = false → [s, rule.next s step] <:+: rule.states p start) := by
  rw [steps] at mem
  rw [states]
  cases started : start.ending with
  | error e => simp [started] at mem
  | ok state =>
    simp only [started] at mem
    exact Scheme.exists_state_of_mem_steps mem

theorem isChain_states {property : σ → Prop} {related : σ → σ → Prop} {harmless : β → Prop}
    (hands : ∀ number, ∀ s ∈ rule.states p start, ∀ step, rule.attempt number s = .ok step →
      rule.settles step = false → harmless step →
        property s → related s (rule.next s step) ∧ property (rule.next s step))
    (all : ∀ step ∈ rule.steps p start, rule.settles step = false → harmless step)
    (first : ∀ s, start.ending = .ok s → property s) :
    (rule.states p start).IsChain related ∧ ∀ s ∈ rule.states p start, property s := by
  rw [steps] at all
  rw [states] at hands ⊢
  cases started : start.ending with
  | error e => simp
  | ok state =>
    simp only [started] at all hands ⊢
    exact Scheme.isChain_statesFrom hands all (first state started)

theorem forall_states_iff {property : σ → Prop} {harmless : β → Prop}
    (hands : ∀ number s step, rule.attempt number s = .ok step → rule.settles step = false →
      property s → (property (rule.next s step) ↔ harmless step))
    (first : ∀ s, start.ending = .ok s → property s) :
    (∀ s ∈ rule.states p start, property s) ↔
      ∀ step ∈ rule.steps p start, rule.settles step = false → harmless step := by
  rw [states, steps]
  cases started : start.ending with
  | error e => simp
  | ok state => exact Scheme.forall_statesFrom_iff hands (first state started)

theorem mem_states_of_final {final : σ} (left : final ∈ rule.final? p start) :
    final ∈ rule.states p start := by
  obtain ⟨state, started, ended⟩ := mem_final?_iff.1 left
  rw [states, started]
  exact Scheme.mem_statesFrom_of_exhausted ended

/-- A search converges in time where each state has a rank that allows a step, and a step that does
not settle it leads to a state of lower rank. -/
theorem converged_of_ranked [ToString ε] {title : String} {ranked : ℕ → σ → Prop} {n : ℕ}
    {state : σ} (started : start.ending = .ok state)
    (hands : ∀ number m, ∀ s ∈ rule.states p start, ranked m s →
      ∃ step, rule.attempt number s = .ok step ∧
        (rule.settles step = false → ∃ l < m, ranked l (rule.next s step)))
    (enough : n < p.settings.maxIterations) (first : ranked n state) :
    let r := rule.report p title start
    r.outcome = .converged ∧ r.iterations.length ≤ n + 1 := by
  intro r
  simp only [states, started] at hands
  obtain ⟨last, settled, few⟩ := Scheme.settled_of_ranked hands enough first
  have outcome : r.outcome = .converged := by
    simp only [r, report, started, finding, Scheme.run, settled]
    rfl
  refine ⟨outcome, ?_⟩
  rw [iterations_report, List.length_map, steps, started]
  exact few

end Rule

theorem Problem.isFinite_of_sample {x : Float} {s : Sample} (sampled : p.sample x = .ok s) :
    s.value.isFinite = true := by
  rw [sample] at sampled
  split at sampled
  next => cases sampled
  next =>
    split at sampled
    next finite =>
      cases sampled
      exact finite
    next => cases sampled

section

variable {guess : Bracket → Float} {settles : BracketStep → Bool} {how : Bracket → String}
  {remarks : BracketStep → List String} {step : BracketStep}

/-- A bracketing method takes its sample where it is told to. -/
theorem attempt_bracketing {count : Nat} {k : Bracket}
    (made : (bracketing p guess settles how remarks).attempt count k = .ok step) :
    step.bracket = k ∧ step.estimate.point = guess k ∧ step.estimate.value.isFinite = true := by
  simp only [bracketing] at made
  split at made
  next => cases made
  next sampled =>
    cases made
    exact ⟨rfl, p.point_of_sample sampled, p.isFinite_of_sample sampled⟩

theorem mem_steps_bracketing {start : Trail String (Error ε) Bracket}
    (mem : step ∈ (bracketing p guess settles how remarks).steps p start) :
    let states := (bracketing p guess settles how remarks).states p start
    step.bracket ∈ states ∧ step.estimate.point = guess step.bracket ∧
      (settles step = false →
        [step.bracket, step.bracket.shrink step.estimate] <:+: states) := by
  obtain ⟨_, k, reached, made, next⟩ := Rule.exists_state_of_mem_steps mem
  obtain ⟨rfl, point, -⟩ := attempt_bracketing made
  exact ⟨reached, point, next⟩

end

end Stepwise.Root
