import Stepwise.Proofs.Binary64.Sign

/-!
# Totals of magnitudes

Magnitudes are added up one after another, and each sum is rounded or overflows. What the total
cannot fall below is the sum of any two of them, as far as a float can hold it.

- `AtLeast`: a float is no less than a number, or it is the positive infinity
- `AtLeast.add`: so is a sum that is rounded
- `AtLeast.foldl`, `AtLeast.foldl_of_mem`: so is a total, with one of its magnitudes if need be
- `pairwise_atLeast_foldl`: so is a total, with any two of its magnitudes
-/

namespace Stepwise.Binary64

open Float.Model UnpackedFloat

/-- A float is no less than a number, or it is the positive infinity. -/
inductive AtLeast (g : ℚ) (x : Float) : Prop where
  | finite (finite : x.isFinite = true) (le : g ≤ value x)
  | infinite (parts : x.toModel.unpack = .infinity .positive)

variable {x y z start : Float} {g p q : ℚ} {values : List Float}

/-! ## Magnitudes -/

theorem abs_of_isFinite (finite : x.isFinite = true) :
    x.abs.isFinite = true ∧ value x.abs = |value x| := by
  have absolute : x.abs.toModel.unpack = (pack x.toModel.unpack.abs).unpack := rfl
  rw [isFinite_iff, value, value, absolute]
  obtain ⟨s, parts⟩ | ⟨s, m, e, pos, parts⟩ := unpack_of_isFinite finite
  · rw [parts, UnpackedFloat.abs, unpack_pack_zero]
    exact ⟨rfl, by simp⟩
  · obtain ⟨canonical, small⟩ := canonical_of_unpack parts
    rw [parts, UnpackedFloat.abs, unpack_pack_finite canonical, if_pos small]
    exact ⟨rfl, (abs_signed s (magnitude_pos pos).le).symm⟩

theorem onGrid_abs (finite : x.isFinite = true) : OnGrid |value x| := by
  obtain ⟨finite', same⟩ := abs_of_isFinite finite
  exact same ▸ onGrid_value finite'

theorem atLeast_abs (finite : x.isFinite = true) : AtLeast |value x| x.abs := by
  obtain ⟨finite', same⟩ := abs_of_isFinite finite
  exact .finite finite' same.ge

theorem atLeast_zero : AtLeast 0 0.0 := .finite isFinite_zero value_zero.ge

theorem value_two : value 2.0 = 2 := by
  have parts : (2.0 : Float).toModel.unpack = .finite .positive (2 ^ 52) (-51) (by decide) := by
    rfl
  rw [value, parts, rational_positive]
  norm_num

theorem computes_two_mul_abs (finite : x.isFinite = true) :
    Computes (2 * |value x|) (2.0 * x.abs) := by
  obtain ⟨finite', same⟩ := abs_of_isFinite finite
  rw [← value_two, ← same]
  exact computes_mul (by decide +kernel) finite'

/-! ## Comparisons -/

theorem AtLeast.mono (atLeast : AtLeast q x) (le : p ≤ q) : AtLeast p x := by
  cases atLeast with
  | finite finite above => exact .finite finite (le.trans above)
  | infinite parts => exact .infinite parts

theorem not_infinity_lt (parts : x.toModel.unpack = .infinity .positive) : ¬ x < y := by
  rw [lt_iff_compare, parts]
  cases y.toModel.unpack with
  | infinity s => cases s <;> simp [UnpackedFloat.compare]
  | zero | finite | notANumber => simp [UnpackedFloat.compare]

/-- A number is rounded to no less than what a float could hold below it. -/
theorem Computes.atLeast (computes : Computes q z) (nonneg : 0 ≤ q) (onGrid : OnGrid g)
    (le : g ≤ q) : AtLeast g z := by
  cases computes with
  | finite finite rounds => exact .finite finite (rounds.le_rational onGrid le)
  | above parts => exact .infinite parts
  | below parts beyond =>
    have less := beyond 0.0 isFinite_zero
    rw [value_zero] at less
    exact absurd less nonneg.not_gt

/-- A number is rounded to nothing greater than a float that is no less. -/
theorem AtLeast.not_lt (atLeast : AtLeast g x) (computes : Computes g z) : ¬ x < z := by
  cases atLeast with
  | finite finite le => exact computes.not_gt_of_le finite le
  | infinite parts => exact not_infinity_lt parts

theorem lt_infinity (finite : x.isFinite = true) (parts : y.toModel.unpack = .infinity .positive) :
    x < y := by
  rw [lt_iff_compare, parts]
  obtain ⟨s, other⟩ | ⟨s, m, e, pos, other⟩ := unpack_of_isFinite finite
  all_goals
    rw [other]
    rfl

theorem AtLeast.not_le_iff_lt (first : AtLeast p x) (second : AtLeast q y) :
    ¬ x ≤ y ↔ y < x := by
  cases first with
  | finite finite =>
    cases second with
    | finite finite' => rw [le_iff finite finite', lt_iff finite' finite, not_le]
    | infinite parts' =>
      exact iff_of_false (not_not_intro (le_of_lt (lt_infinity finite parts')))
        (not_infinity_lt parts')
  | infinite parts =>
    cases second with
    | finite finite' =>
      exact iff_of_true (not_le_infinity parts finite') (lt_infinity finite' parts)
    | infinite parts' =>
      refine iff_of_false (not_not_intro ?_) (not_infinity_lt parts')
      rw [le_iff_compare, parts, parts']
      rfl

/-! ## Sums -/

theorem unpack_add (x y : Float) : (x + y).toModel.unpack =
    (pack (x.toModel.unpack.add .binary64 y.toModel.unpack)).unpack := rfl

/-- An infinite sum stays infinite. -/
theorem AtLeast.infinite_add (second : AtLeast q y)
    (parts : x.toModel.unpack = .infinity .positive) :
    (x + y).toModel.unpack = .infinity .positive := by
  rw [unpack_add, parts]
  cases second with
  | infinite parts' =>
    rw [parts']
    exact unpack_pack_infinity .positive
  | finite finite =>
    obtain ⟨s, other⟩ | ⟨s, m, e, pos, other⟩ := unpack_of_isFinite finite
    all_goals
      rw [other]
      exact unpack_pack_infinity .positive

theorem add_infinite (finite : x.isFinite = true)
    (parts : y.toModel.unpack = .infinity .positive) :
    (x + y).toModel.unpack = .infinity .positive := by
  rw [unpack_add, parts]
  obtain ⟨s, other⟩ | ⟨s, m, e, pos, other⟩ := unpack_of_isFinite finite
  all_goals
    rw [other]
    exact unpack_pack_infinity .positive

theorem AtLeast.add (first : AtLeast p x) (second : AtLeast q y) (p_nonneg : 0 ≤ p)
    (q_nonneg : 0 ≤ q) (onGrid : OnGrid g) (le : g ≤ p + q) : AtLeast g (x + y) := by
  cases first with
  | infinite parts => exact .infinite (second.infinite_add parts)
  | finite finite above =>
    cases second with
    | infinite parts => exact .infinite (add_infinite finite parts)
    | finite finite' above' =>
      exact (computes_add finite finite').atLeast (by linarith) onGrid (by linarith)

theorem AtLeast.foldl (first : AtLeast g start) (onGrid : OnGrid g) (nonneg : 0 ≤ g)
    (finite : ∀ x ∈ values, x.isFinite = true) :
    AtLeast g (values.foldl (fun sum x => sum + x.abs) start) := by
  induction values generalizing start with
  | nil => exact first
  | cons x values ih =>
    obtain ⟨here, others⟩ := List.forall_mem_cons.1 finite
    have magnitude := abs_nonneg (value x)
    exact ih (first.add (atLeast_abs here) nonneg magnitude onGrid (by linarith)) others

theorem AtLeast.foldl_of_mem (first : AtLeast p start) (p_onGrid : OnGrid p) (p_nonneg : 0 ≤ p)
    (finite : ∀ x ∈ values, x.isFinite = true) (mem : x ∈ values) (onGrid : OnGrid g)
    (nonneg : 0 ≤ g) (le : g ≤ p + |value x|) :
    AtLeast g (values.foldl (fun sum x => sum + x.abs) start) := by
  obtain ⟨earlier, later, rfl⟩ := List.append_of_mem mem
  rw [List.forall_mem_append, List.forall_mem_cons] at finite
  obtain ⟨before, here, after⟩ := finite
  rw [List.foldl_append, List.foldl_cons]
  have reached := first.foldl p_onGrid p_nonneg before
  exact (reached.add (atLeast_abs here) p_nonneg (abs_nonneg _) onGrid le).foldl onGrid nonneg after

/-- A total is no less than any two of its magnitudes. -/
theorem pairwise_atLeast_foldl (first : AtLeast 0 start)
    (finite : ∀ x ∈ values, x.isFinite = true) :
    values.Pairwise fun x y => ∀ g, OnGrid g → 0 ≤ g → g ≤ |value x| + |value y| →
      AtLeast g (values.foldl (fun sum x => sum + x.abs) start) := by
  induction values generalizing start with
  | nil => exact .nil
  | cons x values ih =>
    obtain ⟨here, others⟩ := List.forall_mem_cons.1 finite
    have onGrid := onGrid_abs here
    have magnitude := abs_nonneg (value x)
    -- With the first magnitude the sum has reached it, and each of the others can be added to that.
    have reached : AtLeast |value x| (start + x.abs) :=
      first.add (atLeast_abs here) le_rfl magnitude onGrid (zero_add _).ge
    rw [List.foldl_cons]
    refine .cons (fun y mem g => ?_) (ih (reached.mono magnitude) others)
    exact reached.foldl_of_mem onGrid magnitude others mem

end Stepwise.Binary64
