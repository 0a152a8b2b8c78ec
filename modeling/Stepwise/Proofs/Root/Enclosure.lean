import Stepwise.Proofs.Root.SignChange

/-!
# Where the brackets stay

In exact arithmetic a bracketing method never leaves the interval that it is given. The middle of
two floats is between them as long as their sum is not too great; the zero of a chord, rounded
several times on the way, may pass the right end of the bracket, but not the left one.

- `StaysBetween`: what is asked of a search
- `StaysBetween.step_between`, `staysBetween_of_steps`: one step inside the bracket after another
- `staysBetween_iff`: which searches stay between the points that they are given
-/

namespace Stepwise.Root

open Binary64

/-- A search stays between two points: its estimates and its root do, and the brackets that it goes
through are intervals each of which is part of the one before. -/
structure StaysBetween {ε : Type} (a b : Float) (r : Report ε) (brackets : List Bracket) :
    Prop where
  estimates : ∀ x ∈ r.iterations, Between a b x
  root : ∀ x, r.root? = some x → Between a b x
  ordered : ∀ k ∈ brackets, k.left.point ≤ k.right.point
  nested : brackets.IsChain Bracket.Contains

/-- The ends are between two points, and in order. -/
structure Bracket.Inside (a b : Float) (k : Bracket) : Prop where
  ordered : k.Ordered
  left : Between a b k.left.point
  right : Between a b k.right.point

theorem Bracket.Inside.shrink {a b : Float} {k : Bracket} {s : Sample} (inside : k.Inside a b)
    (first : a.isFinite = true) (second : b.isFinite = true) (above : k.left.point ≤ s.point)
    (below : s.point ≤ k.right.point) :
    k.Contains (k.shrink s) ∧ (k.shrink s).Inside a b := by
  obtain ⟨ordered, low, high⟩ := inside
  obtain ⟨contains, ordered'⟩ := ordered.shrink above below
  obtain ⟨left, right⟩ := Bracket.ends_shrink (fun s => Between a b s.point) low high
    (low.of_le_of_le first second high above below)
  exact ⟨contains, ordered', left, right⟩

section

variable {ε : Type} [ToString ε] {p : Problem ε} {title : String} {a b : Float}
  {guess : Bracket → Float} {settles : BracketStep → Bool} {how : Bracket → String}
  {remarks : BracketStep → List String} {k : Bracket}

omit [ToString ε] in
theorem inside_of_bracketStart (first : a.isFinite = true) (second : b.isFinite = true)
    (started : (bracketStart p a b).ending = .ok k) : k.Inside a b := by
  obtain ⟨s, t, sampled, sampled', made⟩ := ending_bracketStart started
  obtain rfl := p.point_of_sample sampled
  obtain rfl := p.point_of_sample sampled'
  obtain ⟨left, right⟩ := Bracket.ends_of_make (fun u => Between s.point t.point u.point) made
    (between_self first second).1 (between_self first second).2
  exact ⟨Bracket.ordered_of_make made first second, left, right⟩

section

variable {rule : Rule Bracket BracketStep ε} (kind : rule = bracketing p guess settles how remarks)
include kind

theorem StaysBetween.step_between {step : BracketStep}
    (stays : StaysBetween a b (rule.report p title (bracketStart p a b))
      (rule.states p (bracketStart p a b)))
    (mem : step ∈ rule.steps p (bracketStart p a b)) (unsettled : rule.settles step = false) :
    step.bracket.left.point ≤ step.estimate.point ∧
      step.estimate.point ≤ step.bracket.right.point := by
  subst kind
  have adjacent := (mem_steps_bracketing mem).2.2 unsettled
  have nested := List.IsChain.infix stays.nested adjacent
  exact (List.isChain_pair.1 nested).point_between
    (stays.ordered _ (adjacent.subset (List.mem_pair.2 (.inr rfl))))

theorem StaysBetween.estimate {step : BracketStep}
    (stays : StaysBetween a b (rule.report p title (bracketStart p a b))
      (rule.states p (bracketStart p a b)))
    (mem : step ∈ rule.steps p (bracketStart p a b)) : Between a b step.estimate.point := by
  subst kind
  refine stays.estimates _ ?_
  rw [Rule.iterations_report]
  exact List.mem_map_of_mem mem

/-- Half a sum that is not finite is no point between two others. -/
theorem StaysBetween.hasMiddle (first : a.isFinite = true) (second : b.isFinite = true)
    (stays : StaysBetween a b (rule.report p title (bracketStart p a b))
      (rule.states p (bracketStart p a b)))
    (left : k ∈ rule.final? p (bracketStart p a b)) : k.HasMiddle := by
  subst kind
  have between := stays.root _ (Rule.root?_report_of_final left)
  exact Bracket.hasMiddle_of_isFinite (between.isFinite first second)

/-- If every step that does not settle the search is inside its bracket, the brackets are part of
one another; then it is enough that estimates of brackets between two points are between them. -/
theorem staysBetween_of_steps (first : a.isFinite = true) (second : b.isFinite = true)
    (within : ∀ step ∈ rule.steps p (bracketStart p a b), rule.settles step = false →
      step.bracket.Ordered → step.bracket.left.point ≤ step.estimate.point ∧
        step.estimate.point ≤ step.bracket.right.point)
    (estimates : ∀ step ∈ rule.steps p (bracketStart p a b), step.bracket.Inside a b →
      Between a b step.estimate.point)
    (middle : ∀ k ∈ rule.final? p (bracketStart p a b), k.HasMiddle) :
    StaysBetween a b (rule.report p title (bracketStart p a b))
      (rule.states p (bracketStart p a b)) := by
  subst kind
  let rule := bracketing p guess settles how remarks
  -- The invariant: every bracket is in order and between the two points.
  have all : (rule.states p (bracketStart p a b)).IsChain Bracket.Contains ∧
      ∀ k ∈ rule.states p (bracketStart p a b), k.Inside a b := by
    refine Rule.isChain_states ?_ within fun _ => inside_of_bracketStart first second
    rintro _ k - step made - within inside
    obtain ⟨rfl, -, -⟩ := attempt_bracketing made
    obtain ⟨above, below⟩ := within inside.ordered
    exact inside.shrink first second above below
  obtain ⟨nested, inside⟩ := all
  have estimate (step) (mem : step ∈ rule.steps p (bracketStart p a b)) :
      Between a b step.estimate.point :=
    estimates step mem (inside _ (mem_steps_bracketing mem).1)
  refine ⟨?_, fun x found => ?_, fun k mem => (inside k mem).ordered.le, nested⟩
  · rw [Rule.iterations_report]
    exact List.forall_mem_map.2 estimate
  · obtain ⟨step, mem, -, rfl⟩ | ⟨k, left, rfl⟩ := Rule.root?_report found
    · exact estimate step mem
    · obtain ⟨ordered, low, high⟩ := inside k (Rule.mem_states_of_final left)
      obtain ⟨above, below⟩ := ordered.midpoint_between (middle k left)
      exact low.of_le_of_le first second high above below

end

/-- Halving stays between two points if no sum of the ends of a bracket is too great. -/
theorem staysBetween_bisection_iff (first : a.isFinite = true) (second : b.isFinite = true) :
    StaysBetween a b ((bisection p).report p title (bracketStart p a b))
        ((bisection p).states p (bracketStart p a b)) ↔
      (∀ step ∈ (bisection p).steps p (bracketStart p a b), step.bracket.HasMiddle) ∧
      ∀ k ∈ (bisection p).final? p (bracketStart p a b), k.HasMiddle := by
  have point {step} (mem : step ∈ (bisection p).steps p (bracketStart p a b)) :
      step.estimate.point = step.bracket.midpoint :=
    (mem_steps_bracketing mem).2.1
  constructor
  · intro stays
    refine ⟨fun step mem => ?_, fun k left => stays.hasMiddle rfl first second left⟩
    have finite := (stays.estimate rfl mem).isFinite first second
    rw [point mem] at finite
    exact Bracket.hasMiddle_of_isFinite finite
  · rintro ⟨middles, middle⟩
    refine staysBetween_of_steps rfl first second (fun step mem _ ordered => ?_)
      (fun step mem inside => ?_) middle
    · rw [point mem]
      exact ordered.midpoint_between (middles step mem)
    · obtain ⟨ordered, low, high⟩ := inside
      obtain ⟨above, below⟩ := ordered.midpoint_between (middles step mem)
      rw [point mem]
      exact low.of_le_of_le first second high above below

/-- The method of the chord leaves a bracket that has the sign change at the right end only. -/
theorem staysBetween_falsePosition_iff (first : a.isFinite = true) (second : b.isFinite = true) :
    StaysBetween a b ((falsePosition p).report p title (bracketStart p a b))
        ((falsePosition p).states p (bracketStart p a b)) ↔
      (∀ step ∈ (falsePosition p).steps p (bracketStart p a b),
        (falsePosition p).settles step = false →
          step.estimate.point ≤ step.bracket.right.point ∧
            (step.bracket.ChangesSign ∨ step.bracket.left.point ≤ step.estimate.point)) ∧
      (∀ step ∈ (falsePosition p).steps p (bracketStart p a b),
        (falsePosition p).settles step = true →
          (step.estimate.point ≤ a ∨ step.estimate.point ≤ b) ∧
            (step.bracket.ChangesSign ∨ a ≤ step.estimate.point ∨ b ≤ step.estimate.point)) ∧
      ∀ k ∈ (falsePosition p).final? p (bracketStart p a b), k.HasMiddle := by
  constructor
  · intro stays
    refine ⟨fun step mem unsettled => ?_, fun step mem _ => ?_,
      fun k left => stays.hasMiddle rfl first second left⟩
    · obtain ⟨left, right⟩ := stays.step_between rfl mem unsettled
      exact ⟨right, .inr left⟩
    · obtain ⟨left, right⟩ | ⟨left, right⟩ := stays.estimate rfl mem
      · exact ⟨.inr right, .inr (.inl left)⟩
      · exact ⟨.inl right, .inr (.inr left)⟩
  · rintro ⟨unsettled, settled, middle⟩
    have left {step} (mem : step ∈ (falsePosition p).steps p (bracketStart p a b))
        (ordered : step.bracket.Ordered) (changes : step.bracket.ChangesSign) {z : Float}
        (finite : z.isFinite = true) (le : step.estimate.point ≤ z) :
        step.bracket.left.point ≤ step.estimate.point := by
      obtain ⟨reached, point, -⟩ := mem_steps_bracketing mem
      have sampled := sampled_of_mem_states reached
      refine le_of_not_lt ordered.left_isFinite finite ?_ le
      rw [point]
      exact ordered.not_chordRoot_lt sampled.1 sampled.2 changes
    have within {step} (mem : step ∈ (falsePosition p).steps p (bracketStart p a b))
        (goesOn : (falsePosition p).settles step = false) (ordered : step.bracket.Ordered) :
        step.bracket.left.point ≤ step.estimate.point ∧
          step.estimate.point ≤ step.bracket.right.point := by
      obtain ⟨right, changes | above⟩ := unsettled step mem goesOn
      · exact ⟨left mem ordered changes ordered.right_isFinite right, right⟩
      · exact ⟨above, right⟩
    refine staysBetween_of_steps rfl first second (fun step mem => within mem)
      (fun step mem inside => ?_) middle
    obtain ⟨ordered, low, high⟩ := inside
    cases settles : (falsePosition p).settles step with
    | false =>
      obtain ⟨above, below⟩ := within mem settles ordered
      exact low.of_le_of_le first second high above below
    | true =>
      -- The estimate that settles the search may lie right of its own bracket.
      obtain ⟨below, changes | above⟩ := settled step mem settles
      · have between {z : Float} (outer : Between a b z) (le : step.estimate.point ≤ z) :
            Between a b step.estimate.point :=
          low.of_le_of_le first second outer
            (left mem ordered changes (outer.isFinite first second) le) le
        obtain le | le := below
        · exact between (between_self first second).1 le
        · exact between (between_self first second).2 le
      · exact between_of_bounds first second below above

/-- Which searches between two points stay there. Of those with the method of halving, the ones in
which no sum of the ends of a bracket is too great. Of those with the method of the chord, the ones
in which no estimate is right of its bracket, or right of both points if it settles the search, and
the last sum is not too great; on the left, only the brackets that have lost the sign change have to
be looked at. -/
theorem staysBetween_iff (p : Problem ε) (first : a.isFinite = true) (second : b.isFinite = true) :
    (StaysBetween a b (Method.bisection.report p (a, b))
        ((bisection p).states p (bracketStart p a b)) ↔
      (∀ step ∈ (bisection p).steps p (bracketStart p a b), step.bracket.HasMiddle) ∧
      ∀ k ∈ (bisection p).final? p (bracketStart p a b), k.HasMiddle) ∧
    (StaysBetween a b (Method.falsePosition.report p (a, b))
        ((falsePosition p).states p (bracketStart p a b)) ↔
      (∀ step ∈ (falsePosition p).steps p (bracketStart p a b),
        (falsePosition p).settles step = false →
          step.estimate.point ≤ step.bracket.right.point ∧
            (step.bracket.ChangesSign ∨ step.bracket.left.point ≤ step.estimate.point)) ∧
      (∀ step ∈ (falsePosition p).steps p (bracketStart p a b),
        (falsePosition p).settles step = true →
          (step.estimate.point ≤ a ∨ step.estimate.point ≤ b) ∧
            (step.bracket.ChangesSign ∨ a ≤ step.estimate.point ∨ b ≤ step.estimate.point)) ∧
      ∀ k ∈ (falsePosition p).final? p (bracketStart p a b), k.HasMiddle) :=
  ⟨staysBetween_bisection_iff first second, staysBetween_falsePosition_iff first second⟩

theorem staysBetween_square_root :
    let p : Problem String := {
      evaluator := fun _ _ x => .ok (x * x - 2.0)
      formula := "x^2 - 2"
      settings := { maxIterations := 3 } }
    (2.0 : Float).isFinite = true ∧ (1.0 : Float).isFinite = true ∧
      StaysBetween 2.0 1.0 (Method.bisection.report p (2.0, 1.0))
        ((bisection p).states p (bracketStart p 2.0 1.0)) ∧
      StaysBetween 2.0 1.0 (Method.falsePosition.report p (2.0, 1.0))
        ((falsePosition p).states p (bracketStart p 2.0 1.0)) := by
  intro p
  have first : (2.0 : Float).isFinite = true := by decide +kernel
  have second : (1.0 : Float).isFinite = true := by decide +kernel
  obtain ⟨halving, chord⟩ := staysBetween_iff p first second
  exact ⟨first, second, halving.2 (by decide +kernel), chord.2 (by decide +kernel)⟩

/-- The middle of two great floats is infinite, and the zero of a chord may be rounded to a float
right of the bracket. -/
theorem not_staysBetween_rounded :
    (let p : Problem String := {
        evaluator := fun _ _ x => .ok (1e308 / x - 0.7)
        formula := "1e308/x - 0.7"
        settings := { maxIterations := 2 } }
      let r := Method.bisection.report p (1e308, 1.7e308)
      isTolerance p.settings.tolerance = true ∧ r.iterations = [1.0 / 0.0, 1.0 / 0.0] ∧
        r.root? = some (1.0 / 0.0) ∧ ¬ Between 1e308 1.7e308 (1.0 / 0.0)) ∧
    (let p : Problem String := {
        evaluator := fun _ _ x => .ok (if x == 0.0 then -0.1 else 1e-20)
        formula := "f(x)"
        settings := {} }
      let r := Method.falsePosition.report p (0.0, 3.0)
      isTolerance p.settings.tolerance = true ∧ r.iterations = [3.0000000000000004] ∧
        r.root? = some 3.0000000000000004 ∧ ¬ Between 0.0 3.0 3.0000000000000004) := by
  decide +kernel

end

end Stepwise.Root
