import Mathlib.Data.List.Chain
import Stepwise.Iteration

/-!
# What a bounded iteration comes to

- `Scheme.Path`: steps that follow one another without settling the matter
- `Scheme.Goes`: such steps and the way they end
- `Scheme.goes_run`: every run is of this kind
- `Scheme.states`: the states that a run goes through, with `Scheme.forall_states_iff` for what is
  true of all of them
- `Scheme.settled_of_ranked`: runs that settle in time
- `Scheme.run_carryOut`: a run that notes its steps makes the same ones
-/

namespace Stepwise.Scheme

variable {σ β ε : Type} {scheme : Scheme σ β ε} {count remaining : Nat} {state final : σ}
  {steps : List β}

/-- Steps from one state to another, the first of them with number `count`. -/
inductive Path (scheme : Scheme σ β ε) : Nat → σ → List β → σ → Prop where
  | nil {count : Nat} {state : σ} : Path scheme count state [] state
  | cons {count : Nat} {state final : σ} {step : β} {steps : List β}
    (made : scheme.attempt count state = .ok step) (unsettled : scheme.settles step = false)
    (later : Path scheme (count + 1) (scheme.next state step) steps final) :
    Path scheme count state (step :: steps) final

/-- What each step says about the state after it is said of the last state by the last step. -/
theorem Path.view_final {γ : Type} {view : σ → γ} {result : β → γ}
    (path : scheme.Path count state steps final)
    (follows : ∀ state step, view (scheme.next state step) = result step) :
    view final = (steps.map result).getLastD (view state) := by
  induction path with
  | nil => rfl
  | cons _ _ _ ih => rw [ih, follows, List.map_cons, List.getLastD_cons]

theorem Path.exists_attempt (path : scheme.Path count state steps final) :
    ∀ step ∈ steps, ∃ count state, scheme.attempt count state = .ok step := by
  induction path with
  | nil => simp
  | cons made _ _ ih => exact List.forall_mem_cons.2 ⟨⟨_, _, made⟩, ih⟩

/-- The runs of at most `remaining` steps. A run that is settled or interrupted has made fewer steps
before, and the last step is attempted with the number after theirs. -/
inductive Goes (scheme : Scheme σ β ε) (count remaining : Nat) (state : σ) : Run σ β ε → Prop where
  | settled {steps : List β} {final : σ} {last : β} (path : scheme.Path count state steps final)
    (made : scheme.attempt (count + steps.length) final = .ok last)
    (settles : scheme.settles last = true) (within : steps.length < remaining) :
    Goes scheme count remaining state ⟨steps ++ [last], .settled last⟩
  | exhausted {steps : List β} {final : σ} (path : scheme.Path count state steps final)
    (all : steps.length = remaining) : Goes scheme count remaining state ⟨steps, .exhausted final⟩
  | interrupted {steps : List β} {final : σ} {interruption : Interruption β ε}
    (path : scheme.Path count state steps final)
    (failed : scheme.attempt (count + steps.length) final = .error interruption)
    (within : steps.length < remaining) :
    Goes scheme count remaining state ⟨steps, .interrupted interruption⟩

theorem Goes.prepend {step : β} {run : Run σ β ε} (made : scheme.attempt count state = .ok step)
    (unsettled : scheme.settles step = false)
    (goes : scheme.Goes (count + 1) remaining (scheme.next state step) run) :
    scheme.Goes count (remaining + 1) state (run.prepend step) := by
  have number (steps : List β) : count + 1 + steps.length = count + (step :: steps).length := by
    simp only [List.length_cons]
    omega
  cases goes with
  | settled path made' settles within =>
    rw [number] at made'
    exact .settled (.cons made unsettled path) made' settles (Nat.succ_lt_succ within)
  | exhausted path all => exact .exhausted (.cons made unsettled path) (congrArg Nat.succ all)
  | interrupted path failed within =>
    rw [number] at failed
    exact .interrupted (.cons made unsettled path) failed (Nat.succ_lt_succ within)

theorem goes_runFrom (scheme : Scheme σ β ε) (count remaining : Nat) (state : σ) :
    scheme.Goes count remaining state (scheme.runFrom count remaining state) := by
  induction remaining generalizing count state with
  | zero => exact .exhausted .nil rfl
  | succ remaining ih =>
    rw [runFrom]
    cases attempted : scheme.attempt count state with
    | error interruption => exact .interrupted .nil attempted (Nat.zero_lt_succ _)
    | ok step =>
      cases settles : scheme.settles step with
      | true =>
        simp only [settles]
        exact .settled .nil attempted settles (Nat.zero_lt_succ _)
      | false =>
        simp only [settles]
        exact (ih (count + 1) (scheme.next state step)).prepend attempted settles

theorem Goes.exists_attempt {run : Run σ β ε} (goes : scheme.Goes count remaining state run) :
    ∀ step ∈ run.steps, ∃ count state, scheme.attempt count state = .ok step := by
  cases goes with
  | settled path made _ _ =>
    refine List.forall_mem_append.2 ⟨path.exists_attempt, ?_⟩
    exact List.forall_mem_singleton.2 ⟨_, _, made⟩
  | exhausted path _ => exact path.exists_attempt
  | interrupted path _ _ => exact path.exists_attempt

theorem goes_run (scheme : Scheme σ β ε) (limit : Nat) (state : σ) :
    scheme.Goes 1 limit state (scheme.run limit state) :=
  scheme.goes_runFrom 1 limit state

/-! ## States on the way -/

/-- The states from which at most `remaining` steps are made, up to that of the last one, made or
not, and the state that is left when all of them are made. -/
def statesFrom (scheme : Scheme σ β ε) : (count remaining : Nat) → σ → List σ
  | _, 0, state => [state]
  | count, remaining + 1, state =>
    state :: match scheme.attempt count state with
      | .error _ => []
      | .ok step =>
        if scheme.settles step then []
        else scheme.statesFrom (count + 1) remaining (scheme.next state step)

/-- The states that a run of at most `limit` steps goes through. -/
def states (scheme : Scheme σ β ε) (limit : Nat) (state : σ) : List σ :=
  scheme.statesFrom 1 limit state

theorem exists_statesFrom_eq_cons (scheme : Scheme σ β ε) (count remaining : Nat) (state : σ) :
    ∃ rest, scheme.statesFrom count remaining state = state :: rest := by
  cases remaining with
  | zero => exact ⟨[], rfl⟩
  | succ remaining => exact ⟨_, rfl⟩

/-- Each step of a run is attempted in one of its states, and if it does not settle the matter, the
state after it comes next. -/
theorem exists_state_of_mem_steps {step : β}
    (mem : step ∈ (scheme.runFrom count remaining state).steps) :
    ∃ number, ∃ s ∈ scheme.statesFrom count remaining state,
      scheme.attempt number s = .ok step ∧ (scheme.settles step = false →
        [s, scheme.next s step] <:+: scheme.statesFrom count remaining state) := by
  induction remaining generalizing count state with
  | zero => simp [runFrom] at mem
  | succ remaining ih =>
    rw [runFrom] at mem
    rw [statesFrom]
    cases attempted : scheme.attempt count state with
    | error interruption => simp [attempted] at mem
    | ok made =>
      cases settles : scheme.settles made with
      | true =>
        simp only [attempted, settles, if_true, List.mem_singleton] at mem
        subst mem
        refine ⟨count, state, List.mem_cons_self, attempted, fun unsettled => ?_⟩
        rw [settles] at unsettled
        cases unsettled
      | false =>
        simp only [attempted, settles, Bool.false_eq_true, if_false, Run.prepend,
          List.mem_cons] at mem
        simp only [settles, Bool.false_eq_true, if_false]
        obtain rfl | later := mem
        · obtain ⟨rest, same⟩ := scheme.exists_statesFrom_eq_cons (count + 1) remaining
            (scheme.next state step)
          exact ⟨count, state, List.mem_cons_self, attempted, fun _ => ⟨[], rest, by simp [same]⟩⟩
        · obtain ⟨number, s, reached, again, next⟩ := ih later
          exact ⟨number, s, List.mem_cons_of_mem _ reached, again, fun unsettled =>
            (next unsettled).trans (List.suffix_cons _ _).isInfix⟩

/-- What every harmless step hands on, all states have if all steps are harmless, and so are states
related that follow one another. The step that settles the matter does not count. -/
theorem isChain_statesFrom {property : σ → Prop} {related : σ → σ → Prop} {harmless : β → Prop}
    (hands : ∀ number, ∀ s ∈ scheme.statesFrom count remaining state, ∀ step,
      scheme.attempt number s = .ok step → scheme.settles step = false → harmless step →
        property s → related s (scheme.next s step) ∧ property (scheme.next s step))
    (all : ∀ step ∈ (scheme.runFrom count remaining state).steps, scheme.settles step = false →
      harmless step)
    (first : property state) :
    (scheme.statesFrom count remaining state).IsChain related ∧
      ∀ s ∈ scheme.statesFrom count remaining state, property s := by
  induction remaining generalizing count state with
  | zero => simp [statesFrom, first]
  | succ remaining ih =>
    rw [runFrom] at all
    rw [statesFrom] at hands ⊢
    cases attempted : scheme.attempt count state with
    | error interruption => simp [first]
    | ok step =>
      cases settles : scheme.settles step with
      | true => simp [first, settles]
      | false =>
        simp only [attempted, settles, Bool.false_eq_true, if_false, Run.prepend,
          List.forall_mem_cons] at all hands ⊢
        obtain ⟨now, later⟩ := all
        obtain ⟨follows, kept⟩ := (hands count).1 step attempted settles (now trivial) first
        obtain ⟨chain, rest⟩ := ih (fun number => (hands number).2) later kept
        refine ⟨?_, first, rest⟩
        -- The states that follow begin with the one after this step.
        obtain ⟨_, same⟩ := scheme.exists_statesFrom_eq_cons (count + 1) remaining
          (scheme.next state step)
        rw [same] at chain ⊢
        exact .cons_cons follows chain

/-- Where a step hands a property on exactly if it is harmless, all states have the property exactly
if all steps are harmless, that which settles the matter apart. -/
theorem forall_statesFrom_iff {property : σ → Prop} {harmless : β → Prop}
    (hands : ∀ number s step, scheme.attempt number s = .ok step → scheme.settles step = false →
      property s → (property (scheme.next s step) ↔ harmless step))
    (first : property state) :
    (∀ s ∈ scheme.statesFrom count remaining state, property s) ↔
      ∀ step ∈ (scheme.runFrom count remaining state).steps, scheme.settles step = false →
        harmless step := by
  constructor
  · intro all step mem unsettled
    obtain ⟨number, s, reached, attempted, next⟩ := exists_state_of_mem_steps mem
    refine (hands number s step attempted unsettled (all s reached)).1 (all _ ?_)
    exact (next unsettled).subset (by simp)
  · intro all
    have chain : (scheme.statesFrom count remaining state).IsChain (fun _ _ => True) ∧
        ∀ s ∈ scheme.statesFrom count remaining state, property s := by
      refine isChain_statesFrom ?_ all first
      intro number s _ step attempted unsettled unharmed holds
      exact ⟨trivial, (hands number s step attempted unsettled holds).2 unharmed⟩
    exact chain.2

/-- A run settles in time where each state has a rank that allows a step, and a step that does not
settle the matter leads to a state of lower rank. -/
theorem settled_of_ranked {ranked : ℕ → σ → Prop} {n : ℕ}
    (hands : ∀ number m, ∀ s ∈ scheme.statesFrom count remaining state, ranked m s →
      ∃ step, scheme.attempt number s = .ok step ∧
        (scheme.settles step = false → ∃ l < m, ranked l (scheme.next s step)))
    (enough : n < remaining) (first : ranked n state) :
    ∃ last, (scheme.runFrom count remaining state).ending = .settled last ∧
      (scheme.runFrom count remaining state).steps.length ≤ n + 1 := by
  -- The rank varies with the steps that remain: a step that goes on takes one off both.
  induction remaining generalizing count state n with
  | zero => exact absurd enough n.not_lt_zero
  | succ remaining ih =>
    rw [statesFrom] at hands
    obtain ⟨step, attempted, lower⟩ := hands count n state List.mem_cons_self first
    rw [runFrom]
    cases settles : scheme.settles step with
    | true =>
      simp only [attempted, settles, if_true]
      exact ⟨step, rfl, Nat.le_add_left 1 n⟩
    | false =>
      obtain ⟨l, less, next⟩ := lower settles
      simp only [attempted, settles, Bool.false_eq_true, if_false] at hands ⊢
      have later := fun number m s reached => hands number m s (List.mem_cons_of_mem _ reached)
      obtain ⟨last, settled, steps⟩ := ih later (less.trans_le (Nat.lt_succ_iff.1 enough)) next
      refine ⟨last, settled, ?_⟩
      rw [Run.prepend, List.length_cons]
      omega

theorem mem_statesFrom_of_exhausted {final : σ}
    (exhausted : (scheme.runFrom count remaining state).ending = .exhausted final) :
    final ∈ scheme.statesFrom count remaining state := by
  induction remaining generalizing count state with
  | zero =>
    cases exhausted
    exact List.mem_singleton_self _
  | succ remaining ih =>
    rw [runFrom] at exhausted
    rw [statesFrom]
    cases attempted : scheme.attempt count state with
    | error interruption => simp [attempted] at exhausted
    | ok step =>
      cases settles : scheme.settles step with
      | true => simp [attempted, settles] at exhausted
      | false =>
        simp only [attempted, settles, Bool.false_eq_true, if_false, Run.prepend] at exhausted
        simpa [settles] using .inr (ih exhausted)

/-! ## Steps that are noted -/

section

variable {τ γ δ : Type} {note noteAbandoned : Nat → β → τ → τ}

/-- A record with steps noted in order, the first of them with number `count`. -/
def noteAll (note : Nat → β → τ → τ) : (count : Nat) → List β → τ → τ
  | _, [], record => record
  | count, step :: steps, record => noteAll note (count + 1) steps (note count step record)

/-- What a run with this ending leaves in a record, `count` being the number of a further step. -/
def close (noteAbandoned : Nat → β → τ → τ) (count : Nat) (record : τ) :
    Ending σ β ε → EStateM.Result ε τ (Halt σ β)
  | .settled last => .ok (.settled last) record
  | .exhausted state => .ok (.exhausted state) record
  | .interrupted ⟨cause, some step⟩ => .error cause (noteAbandoned count step record)
  | .interrupted ⟨cause, none⟩ => .error cause record

theorem run_carryOut (scheme : Scheme σ β ε) (count remaining : Nat) (state : σ) (record : τ) :
    (scheme.carryOut note noteAbandoned count remaining state).run record =
      let run := scheme.runFrom count remaining state
      close noteAbandoned (count + run.steps.length) (noteAll note count run.steps record)
        run.ending := by
  induction remaining generalizing count state record with
  | zero => rfl
  | succ remaining ih =>
    rw [carryOut, runFrom]
    cases attempted : scheme.attempt count state with
    | error interruption =>
      obtain ⟨cause, _ | step⟩ := interruption <;> rfl
    | ok step =>
      have number (steps : List β) : count + 1 + steps.length = count + (step :: steps).length := by
        simp only [List.length_cons]
        omega
      cases settles : scheme.settles step with
      | true =>
        simp only [settles]
        rfl
      | false => simp [settles, ih, number, Run.prepend, noteAll]

/-- Where notes are lines and items put behind those that are there, all of them can be put there
at once. -/
theorem noteAll_eq {extend : τ → List γ → List δ → τ} (lines : Nat → β → List γ) (item : β → δ)
    (extend_nil : ∀ record, extend record [] [] = record)
    (extend_extend : ∀ record l i l' i',
      extend (extend record l i) l' i' = extend record (l ++ l') (i ++ i'))
    (count : Nat) (steps : List β) (record : τ) :
    noteAll (fun count step record => extend record (lines count step) [item step]) count steps
      record = extend record (steps.mapIdx fun i step => lines (i + count) step).flatten
        (steps.map item) := by
  induction steps generalizing count record with
  | nil => exact (extend_nil record).symm
  | cons step steps ih =>
    rw [noteAll, ih, extend_extend, List.mapIdx_cons, List.flatten_cons, List.map_cons]
    simp only [Nat.add_assoc, Nat.add_comm 1, Nat.zero_add, List.singleton_append]

end

end Stepwise.Scheme
