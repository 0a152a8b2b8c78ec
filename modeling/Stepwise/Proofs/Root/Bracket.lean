import Stepwise.Proofs.Binary64.Sign
import Stepwise.Root.Bracket

/-!
# Brackets in floating-point arithmetic

What is left of the geometry of a bracket when points and values are floats.

- `Between`: between two points, whichever of them comes first
- `Bracket.between`, `Bracket.make_of_isFinite`: how a bracket is made of finite values
- `Bracket.ChangesSign`: the values at the ends are of opposite signs
- `Bracket.Ordered`, `Bracket.Contains`: the interval of a bracket
- `Bracket.Ordered.midpoint_between`: where the middle is between the ends
- `Bracket.Ordered.not_chordRoot_lt`: the zero of the chord is never left of the bracket
-/

namespace Stepwise.Root

open Binary64

section

variable {a b x y z : Float}

/-- A point is between two others, whichever of them comes first. -/
def Between (a b x : Float) : Prop := a ≤ x ∧ x ≤ b ∨ b ≤ x ∧ x ≤ a

instance : Decidable (Between a b x) := inferInstanceAs (Decidable (_ ∨ _))

theorem Between.isFinite (between : Between a b x) (first : a.isFinite = true)
    (second : b.isFinite = true) : x.isFinite = true := by
  obtain ⟨above, below⟩ | ⟨above, below⟩ := between
  · exact isFinite_of_le_of_le first second above below
  · exact isFinite_of_le_of_le second first above below

theorem between_iff (first : a.isFinite = true) (second : b.isFinite = true)
    (finite : x.isFinite = true) : Between a b x ↔ value x ∈ Set.uIcc (value a) (value b) := by
  rw [Between, le_iff first finite, le_iff finite second, le_iff second finite, le_iff finite first,
    Set.mem_uIcc]

theorem between_self (first : a.isFinite = true) (second : b.isFinite = true) :
    Between a b a ∧ Between a b b := by
  rw [between_iff first second first, between_iff first second second]
  exact ⟨Set.left_mem_uIcc, Set.right_mem_uIcc⟩

/-- Between two points is what is not beyond both of them on either side. -/
theorem between_of_bounds (first : a.isFinite = true) (second : b.isFinite = true)
    (below : x ≤ a ∨ x ≤ b) (above : a ≤ x ∨ b ≤ x) : Between a b x := by
  obtain right | right := below <;> obtain left | left := above
  · have finite := isFinite_of_le_of_le first first left right
    rw [le_iff first finite] at left
    rw [le_iff finite first] at right
    rw [between_iff first second finite, le_antisymm right left]
    exact Set.left_mem_uIcc
  · exact .inr ⟨left, right⟩
  · exact .inl ⟨left, right⟩
  · have finite := isFinite_of_le_of_le second second left right
    rw [le_iff second finite] at left
    rw [le_iff finite second] at right
    rw [between_iff first second finite, le_antisymm right left]
    exact Set.right_mem_uIcc

/-- What is between two points that are between two others is between those as well. -/
theorem Between.of_le_of_le (first : a.isFinite = true) (second : b.isFinite = true)
    (left : Between a b x) (right : Between a b z) (above : x ≤ y) (below : y ≤ z) :
    Between a b y := by
  have finiteX := left.isFinite first second
  have finiteZ := right.isFinite first second
  have finiteY := isFinite_of_le_of_le finiteX finiteZ above below
  rw [between_iff first second finiteX] at left
  rw [between_iff first second finiteZ] at right
  rw [le_iff finiteX finiteY] at above
  rw [le_iff finiteY finiteZ] at below
  rw [between_iff first second finiteY]
  exact Set.ordConnected_uIcc.out left right ⟨above, below⟩

end

namespace Bracket

variable {k : Bracket}

/-- The values at the ends are of opposite signs. -/
def ChangesSign (k : Bracket) : Prop := Opposite k.left.value k.right.value

instance : DecidablePred ChangesSign := fun k =>
  inferInstanceAs (Decidable (Opposite k.left.value k.right.value))

/-- The ends are finite points, the first of which is not to the right of the second. -/
structure Ordered (k : Bracket) : Prop where
  left_isFinite : k.left.point.isFinite = true
  right_isFinite : k.right.point.isFinite = true
  le : k.left.point ≤ k.right.point

/-- The interval of another bracket is part of that of this one. -/
structure Contains (k inner : Bracket) : Prop where
  left : k.left.point ≤ inner.left.point
  right : inner.right.point ≤ k.right.point

/-- The samples at two points, in the order of the points. -/
def between (a b : Sample) : Bracket := if a.point < b.point then ⟨a, b⟩ else ⟨b, a⟩

/-- Of two finite values only the product is looked at. -/
theorem make_of_isFinite {ε : Type} {a b : Sample} (first : a.value.isFinite = true)
    (second : b.value.isFinite = true) :
    make (ε := ε) a b =
      if a.value * b.value >= 0.0 then .error (.noSignChange a b) else .ok (between a b) := by
  simp only [make, between, isNaN_of_isFinite first, isNaN_of_isFinite second, Bool.or_false,
    decide_eq_true_eq]
  split
  next => rfl
  next => split <;> rfl

theorem ends_of_make {ε : Type} {a b : Sample} (property : Sample → Prop)
    (made : make (ε := ε) a b = .ok k) (first : property a) (second : property b) :
    property k.left ∧ property k.right := by
  rw [make] at made
  split at made
  next => cases made
  next =>
    split at made <;> cases made
    · exact ⟨first, second⟩
    · exact ⟨second, first⟩

theorem ends_shrink {s : Sample} (property : Sample → Prop) (left : property k.left)
    (right : property k.right) (new : property s) :
    property (k.shrink s).left ∧ property (k.shrink s).right := by
  rw [shrink]
  split
  · exact ⟨left, new⟩
  · exact ⟨new, right⟩

theorem ordered_of_make {ε : Type} {a b : Sample} (made : make (ε := ε) a b = .ok k)
    (first : a.point.isFinite = true) (second : b.point.isFinite = true) : k.Ordered := by
  rw [make] at made
  split at made
  next => cases made
  next =>
    split at made
    next lt =>
      cases made
      exact ⟨first, second, le_of_lt lt⟩
    next notLt =>
      cases made
      rw [lt_iff first second, not_lt] at notLt
      exact ⟨second, first, (le_iff second first).2 notLt⟩

/-- A sample inside a bracket shrinks it to a part of itself. -/
theorem Ordered.shrink {s : Sample} (ordered : k.Ordered) (left : k.left.point ≤ s.point)
    (right : s.point ≤ k.right.point) : k.Contains (k.shrink s) ∧ (k.shrink s).Ordered := by
  have finite := isFinite_of_le_of_le ordered.left_isFinite ordered.right_isFinite left right
  have refl {x : Float} (finite : x.isFinite = true) : x ≤ x := (le_iff finite finite).2 le_rfl
  rw [Bracket.shrink]
  split
  · exact ⟨⟨refl ordered.left_isFinite, right⟩, ordered.left_isFinite, finite, left⟩
  · exact ⟨⟨left, refl ordered.right_isFinite⟩, finite, ordered.right_isFinite, right⟩

/-- A sample that shrinks a bracket to a part of itself lies inside. -/
theorem Contains.point_between {s : Sample} (contains : k.Contains (k.shrink s))
    (ordered : (k.shrink s).left.point ≤ (k.shrink s).right.point) :
    k.left.point ≤ s.point ∧ s.point ≤ k.right.point := by
  obtain ⟨left, right⟩ := contains
  rw [Bracket.shrink] at left right ordered
  split at left
  next lt =>
    simp only [lt, if_true] at right ordered
    exact ⟨ordered, right⟩
  next notLt =>
    simp only [notLt, if_false] at ordered
    exact ⟨left, ordered⟩

/-- The sum of the ends is finite, and so the middle as well. -/
def HasMiddle (k : Bracket) : Prop := (k.left.point + k.right.point).isFinite = true

instance : DecidablePred HasMiddle := fun k =>
  inferInstanceAs (Decidable ((k.left.point + k.right.point).isFinite = true))

theorem hasMiddle_of_isFinite (finite : k.midpoint.isFinite = true) : k.HasMiddle :=
  isFinite_of_mul_right finite

theorem Ordered.midpoint_between (ordered : k.Ordered) (sum : k.HasMiddle) :
    k.left.point ≤ k.midpoint ∧ k.midpoint ≤ k.right.point :=
  half_add_between ordered.left_isFinite ordered.right_isFinite ordered.le sum

/-- However the steps on the way are rounded, the zero of the chord is not left of the bracket. -/
theorem Ordered.not_chordRoot_lt (ordered : k.Ordered) (left : k.left.value.isFinite = true)
    (right : k.right.value.isFinite = true) (changes : k.ChangesSign) :
    ¬ k.chordRoot < k.left.point := by
  have ends := ordered.le
  rw [le_iff ordered.left_isFinite ordered.right_isFinite] at ends
  have width : Sided .positive (k.right.point - k.left.point).toModel.unpack :=
    sided_of_nonneg (computes_sub ordered.right_isFinite ordered.left_isFinite) (by linarith)
  have rise := computes_sub right left
  -- The rise from the left value to the right one is not rounded to zero, being greater than the
  -- right value itself; its sign is that of the right value, so the quotient is not above zero.
  have quotient : Sided .negative ((k.left.value * (k.right.point - k.left.point)) /
      (k.right.value - k.left.value)).toModel.unpack := by
    obtain ⟨below, above⟩ | ⟨above, below⟩ := changes
    · rw [lt_zero_iff left] at below
      rw [zero_lt_iff right] at above
      have first : Sided .negative k.left.value.toModel.unpack := by
        rw [sided_negative_iff, zero_lt_iff left]
        linarith
      have farther : |value k.right.value| ≤ |value k.right.value - value k.left.value| := by
        rw [abs_of_pos above, abs_of_pos (by linarith)]
        linarith
      exact (first.mul width).div (sided_of_nonneg rise (by linarith))
        (rise.ne_zero (onGrid_value right) above.ne' farther)
    · rw [zero_lt_iff left] at above
      rw [lt_zero_iff right] at below
      have first : Sided .positive k.left.value.toModel.unpack := by
        rw [sided_positive_iff, lt_zero_iff left]
        linarith
      have farther : |value k.right.value| ≤ |value k.right.value - value k.left.value| := by
        rw [abs_of_neg below, abs_of_neg (by linarith)]
        linarith
      exact (first.mul width).div (sided_of_nonpos rise (by linarith))
        (rise.ne_zero (onGrid_value right) below.ne farther)
  exact not_sub_lt ordered.left_isFinite quotient

end Bracket

end Stepwise.Root
