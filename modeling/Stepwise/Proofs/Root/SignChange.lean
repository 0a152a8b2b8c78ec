import Stepwise.Proofs.Root.Bracket
import Stepwise.Proofs.Root.Course

/-!
# What becomes of the sign change

A bracketing method is to keep the half in which the values change sign. Which half that is it reads
off a product, and the product of two small values may be rounded to zero.

- `Bracket.changesSign_of_make`, `Bracket.changesSign_shrink_iff`: when the values at the ends of a
  bracket are of opposite signs
- `Bracket.Misleads`: samples whose sign is not seen
- `changesSign_iff`: the sign change is kept all along where no sample misleads
-/

namespace Stepwise.Root

open Binary64

variable {ε : Type} {p : Problem ε}

namespace Bracket

variable {a b s : Sample} {k : Bracket}

/-- Where a bracket can be made, the values differ in sign: however their product is rounded, it
cannot be less than zero otherwise. -/
theorem changesSign_of_make (made : make (ε := ε) a b = .ok k) (first : a.value.isFinite = true)
    (second : b.value.isFinite = true) : k.ChangesSign := by
  rw [make] at made
  split at made
  next => cases made
  next signs =>
    simp only [Bool.or_eq_true, decide_eq_true_eq, not_or] at signs
    obtain ⟨⟨notAbove, -⟩, -⟩ := signs
    have below := lt_zero_of_not_le (computes_mul first second).isNaN notAbove
    have opposite : Opposite a.value b.value := by
      rw [mul_lt_zero_iff first second] at below
      exact (opposite_iff first second).2 (below.trans (neg_neg_of_pos (by positivity)))
    split at made <;> cases made
    · exact opposite
    · exact opposite.symm

/-- The value of the sample is of the other sign than that at the left end, but their product is not
greater than half of the least positive float. -/
def Misleads (k : Bracket) (s : Sample) : Prop :=
  -2 ^ (-1075 : ℤ) ≤ value k.left.value * value s.value ∧ value k.left.value * value s.value < 0

theorem changesSign_shrink_iff (changes : k.ChangesSign) (left : k.left.value.isFinite = true)
    (finite : s.value.isFinite = true) (sign : s.value < 0.0 ∨ 0.0 < s.value) :
    (k.shrink s).ChangesSign ↔ ¬ k.Misleads s := by
  have half : (0 : ℚ) < 2 ^ (-1075 : ℤ) := by positivity
  rw [shrink, Misleads]
  split
  next lt =>
    rw [mul_lt_zero_iff left finite] at lt
    have opposite : Opposite k.left.value s.value := (opposite_iff left finite).2 (by linarith)
    exact iff_of_true opposite fun misleads => misleads.1.not_gt lt
  next notLt =>
    rw [mul_lt_zero_iff left finite] at notLt
    -- The right end stays, so the new left end has to have the sign of the old one.
    change Opposite s.value k.right.value ↔ _
    rw [Opposite.right_iff_not_left changes sign, opposite_iff left finite,
      and_iff_right (not_lt.1 notLt)]

theorem misleads_iff (left : k.left.value.isFinite = true) (finite : s.value.isFinite = true) :
    k.Misleads s ↔ Opposite k.left.value s.value ∧ (k.left.value * s.value == 0.0) = true := by
  rw [Misleads, opposite_iff left finite, (computes_mul left finite).beq_zero_iff, and_comm]
  refine and_congr_right fun below => ?_
  rw [abs_of_neg below, neg_le]

end Bracket

/-- The values at the ends are finite. -/
def Bracket.Sampled (k : Bracket) : Prop :=
  k.left.value.isFinite = true ∧ k.right.value.isFinite = true

theorem sampled_of_bracketStart {a b : Float} {k : Bracket}
    (started : (bracketStart p a b).ending = .ok k) : k.Sampled ∧ k.ChangesSign := by
  obtain ⟨first, second, sampled, sampled', made⟩ := ending_bracketStart started
  have finite := p.isFinite_of_sample sampled
  have finite' := p.isFinite_of_sample sampled'
  exact ⟨Bracket.ends_of_make (fun s => s.value.isFinite = true) made finite finite',
    Bracket.changesSign_of_make made finite finite'⟩

theorem Bracket.Sampled.shrink {k : Bracket} {s : Sample} (sampled : k.Sampled)
    (finite : s.value.isFinite = true) : (k.shrink s).Sampled :=
  ends_shrink (fun s => s.value.isFinite = true) sampled.1 sampled.2 finite

/-! ## Whole searches -/

section

variable {guess : Bracket → Float} {settles : BracketStep → Bool} {how : Bracket → String}
  {remarks : BracketStep → List String} {a b : Float} {k : Bracket}

theorem sampled_of_mem_states
    (mem : k ∈ (bracketing p guess settles how remarks).states p (bracketStart p a b)) :
    k.Sampled := by
  let rule := bracketing p guess settles how remarks
  have all : (∀ k ∈ rule.states p (bracketStart p a b), k.Sampled) ↔
      ∀ step ∈ rule.steps p (bracketStart p a b), rule.settles step = false → True := by
    refine Rule.forall_states_iff ?_ fun _ started => (sampled_of_bracketStart started).1
    intro _ k step made _ sampled
    exact iff_of_true (sampled.shrink (attempt_bracketing made).2.2) trivial
  exact all.2 (fun _ _ _ => trivial) k mem

/-- A method that goes on only from values that are not too near to zero keeps the sign change up to
the first product that misleads it. -/
theorem changesSign_bracketing_iff (accepted : isTolerance p.settings.tolerance = true)
    (far : ∀ step, settles step = false → ¬ step.estimate.value.abs < p.settings.tolerance) :
    let rule := bracketing p guess settles how remarks
    (∀ k ∈ rule.states p (bracketStart p a b), k.ChangesSign) ↔
      ∀ step ∈ rule.steps p (bracketStart p a b), rule.settles step = false →
        ¬ step.bracket.Misleads step.estimate := by
  intro rule
  have all : (∀ k ∈ rule.states p (bracketStart p a b), k.ChangesSign) ↔
      ∀ k ∈ rule.states p (bracketStart p a b), k.Sampled ∧ k.ChangesSign :=
    forall₂_congr fun k mem => (and_iff_right (sampled_of_mem_states mem)).symm
  rw [all]
  refine Rule.forall_states_iff ?_ fun _ => sampled_of_bracketStart
  rintro _ k step made unsettled ⟨sampled, changes⟩
  obtain ⟨rfl, -, finite⟩ := attempt_bracketing made
  have sign := sign_of_not_abs_lt (isNaN_of_isFinite finite) (isTolerance_iff.1 accepted).2
    (far step unsettled)
  change (step.bracket.shrink step.estimate).Sampled ∧ _ ↔ _
  rw [and_iff_right (sampled.shrink finite)]
  exact Bracket.changesSign_shrink_iff changes sampled.1 finite sign

end

/-- In a search with either bracketing method, the values at the ends of the bracket are of opposite
signs at the start of every iteration and when the limit is reached, unless an iteration goes on
from a value of the other sign than that at the left end where the product of the two is not greater
than half of the least positive float. -/
theorem changesSign_iff (accepted : isTolerance p.settings.tolerance = true) (a b : Float) :
    ∀ rule ∈ [bisection p, falsePosition p],
      (∀ k ∈ rule.states p (bracketStart p a b), k.ChangesSign) ↔
        ∀ step ∈ rule.steps p (bracketStart p a b), rule.settles step = false →
          ¬ step.bracket.Misleads step.estimate := by
  simp only [List.forall_mem_cons, List.not_mem_nil, false_imp_iff, implies_true, and_true]
  constructor
  · refine changesSign_bracketing_iff accepted fun step unsettled near => ?_
    simp [near] at unsettled
  · refine changesSign_bracketing_iff accepted fun step unsettled near => ?_
    simp [falsePositionWithin, near] at unsettled

theorem changesSign_cube_root :
    let p : Problem Empty := {
      evaluator := fun _ _ x => .ok (x * x * x - 2.0)
      formula := "x^3 - 2"
      settings := { maxIterations := 4 } }
    isTolerance p.settings.tolerance = true ∧
      ∀ rule ∈ [bisection p, falsePosition p],
        ∀ k ∈ rule.states p (bracketStart p 0.0 2.0), k.ChangesSign := by
  intro p
  have accepted : isTolerance p.settings.tolerance = true := by decide +kernel
  have shown : ∀ rule ∈ [bisection p, falsePosition p],
      ∀ step ∈ rule.steps p (bracketStart p 0.0 2.0),
        step.bracket.left.value.isFinite = true ∧ step.estimate.value.isFinite = true ∧
          (step.bracket.left.value * step.estimate.value == 0.0) = false := by
    decide +kernel
  refine ⟨accepted, fun rule mem => (changesSign_iff accepted 0.0 2.0 rule mem).2 ?_⟩
  intro step made _ misleads
  obtain ⟨left, finite, nonzero⟩ := shown rule mem step made
  rw [Bracket.misleads_iff left finite, nonzero] at misleads
  exact Bool.false_ne_true misleads.2

/-- The least positive float loses its sign in a product: halving goes on from two values below
zero, away from the root. -/
theorem not_changesSign_least_value :
    let p : Problem Empty := {
      evaluator := fun _ _ x => .ok (5e-324 - 0.2 * x)
      formula := "5e-324 - 0.2x"
      settings := { maxIterations := 2 } }
    isTolerance p.settings.tolerance = true ∧
      ∃ k ∈ (bisection p).states p (bracketStart p 0.0 4.0),
        k.left.value < 0.0 ∧ k.right.value < 0.0 := by
  decide +kernel

end Stepwise.Root
