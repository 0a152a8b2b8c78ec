import Mathlib.Algebra.BigOperators.Fin
import Mathlib.Algebra.BigOperators.Intervals
import Stepwise.Proofs.Linear.Elimination

/-!
# What back substitution finds

Once all columns are treated, each unknown follows from those after it. Back substitution satisfies
the equations from the last one upward, and a value found later does not occur in an equation
satisfied before.
-/

namespace Stepwise.Linear

open Matrix

variable {n : ℕ}

/-- The rational numbers in a vector of fractions. -/
def values (x : Vector Fraction n) : Fin n → ℚ := fun i => (x.get i).value

theorem values_set (x : Vector Fraction n) (i : Fin n) (value : Fraction) :
    values (x.set i value i.isLt) = Function.update (values x) i value.value := by
  ext j
  change (x.set i value i.isLt)[j.val].value = _
  rcases eq_or_ne j i with rfl | other
  · simp
  · rw [Function.update_of_ne other,
      Vector.getElem_set_ne _ _ (fun same => other (Fin.ext same).symm)]
    rfl

/-! ## One unknown -/

theorem value_foldl_sub (term : Fin n → Fraction) (indices : List (Fin n)) (start : Fraction) :
    (indices.foldl (fun sum j => sum - term j) start).value =
      start.value - (indices.map fun j => (term j).value).sum := by
  induction indices generalizing start with
  | nil => simp
  | cons j indices ih =>
    rw [List.foldl_cons, ih, Fraction.value_sub, List.map_cons, List.sum_cons, sub_sub]

theorem sum_map_after (f : Fin n → ℚ) (i : Fin n) :
    ((after i).map f).sum = ∑ j ∈ Finset.Ioi i, f j := by
  have distinct : (after i).Nodup := (List.nodup_finRange n).filter _
  rw [← List.sum_toFinset f distinct]
  congr 1
  ext j
  simp [mem_after]

/-- The terms of an equation, if those before the diagonal are zero. -/
theorem mulVec_of_zero_left {m : Augmented n} {i : Fin n} (zeros : ∀ j, j < i → m.square i j = 0)
    (x : Fin n → ℚ) :
    (m.square *ᵥ x) i = m.square i i * x i + ∑ j ∈ Finset.Ioi i, m.square i j * x j := by
  rw [Finset.add_sum_Ioi_eq_sum_Ici (M := ℚ) (f := fun j => m.square i j * x j) i]
  change ∑ j, m.square i j * x j = _
  refine (Finset.sum_subset (Finset.subset_univ _) ?_).symm
  intro j _ outside
  rw [zeros j (not_le.1 (mt Finset.mem_Ici.2 outside)), zero_mul]

theorem exists_backValue {m : Augmented n} (reduced : Reduced n m) (x : Vector Fraction n)
    (i : Fin n) :
    ∃ value, backValue m x i = .ok value ∧
      (m.square *ᵥ Function.update (values x) i value.value) i = m.right i := by
  have pivot : m.square i i ≠ 0 := reduced.pivot i i.isLt
  obtain ⟨value, division, quotient⟩ := Fraction.exists_divide
    ((after i).foldl (fun sum j => sum - m.coefficient i j * x.get j) (m.constant i)) pivot
  refine ⟨value, by rw [backValue, division]; rfl, ?_⟩
  rw [value_foldl_sub] at quotient
  simp only [Fraction.value_mul] at quotient
  rw [sum_map_after] at quotient
  change value.value = _ / m.square i i at quotient
  -- The unknowns behind the diagonal are found already and do not change.
  have same : ∀ j ∈ Finset.Ioi i, m.square i j * Function.update (values x) i value.value j =
      (m.coefficient i j).value * (x.get j).value := by
    intro j later
    rw [Function.update_of_ne (Finset.mem_Ioi.1 later).ne']
    rfl
  rw [mulVec_of_zero_left fun j early => reduced.below j j.isLt i early, Function.update_self,
    Finset.sum_congr rfl same, quotient, mul_div_cancel₀ _ pivot]
  exact sub_add_cancel _ _

/-- A change of an unknown that has no part in an equation. -/
theorem mulVec_update_of_absent {m : Augmented n} {r i : Fin n} (absent : m.square r i = 0)
    (x : Fin n → ℚ) (value : ℚ) :
    (m.square *ᵥ Function.update x i value) r = (m.square *ᵥ x) r := by
  simp only [mulVec, dotProduct]
  apply Finset.sum_congr rfl
  intro j _
  rcases eq_or_ne j i with rfl | other
  · rw [absent, zero_mul, zero_mul]
  · rw [Function.update_of_ne other]

/-! ## All unknowns -/

theorem reverse_take_finRange {k : ℕ} (inside : k < n) :
    ((List.finRange n).take (k + 1)).reverse =
      ⟨k, inside⟩ :: ((List.finRange n).take k).reverse := by
  rw [List.take_add_one, List.getElem?_eq_getElem (by simpa using inside), List.getElem_finRange,
    Option.toList_some, List.reverse_append]
  simp

theorem backSubstitute_ending {m : Augmented n} (reduced : Reduced n m) {k : ℕ} (within : k ≤ n)
    (x : Vector Fraction n)
    (satisfied : ∀ i : Fin n, k ≤ i.val → (m.square *ᵥ values x) i = m.right i) :
    ∃ x', (backSubstitute m ((List.finRange n).take k).reverse x).ending = .ok x' ∧
      m.Solves (values x') := by
  induction k generalizing x with
  | zero => exact ⟨x, rfl, funext fun i => satisfied i (Nat.zero_le _)⟩
  | succ k ih =>
    rw [reverse_take_finRange within]
    obtain ⟨value, found, solved⟩ := exists_backValue reduced x ⟨k, within⟩
    have found_values : values (x.set k value within) =
        Function.update (values x) ⟨k, within⟩ value.value := values_set x ⟨k, within⟩ value
    have extended : ∀ i : Fin n, k ≤ i.val →
        (m.square *ᵥ values (x.set k value within)) i = m.right i := by
      intro i low
      rw [found_values]
      rcases low.eq_or_lt with same | later
      · rw [show i = ⟨k, within⟩ from Fin.ext same.symm]
        exact solved
      · -- An equation further down does not have the new unknown in it.
        have absent : m.square i ⟨k, within⟩ = 0 := reduced.below ⟨k, within⟩ within i later
        rw [mulVec_update_of_absent absent]
        exact satisfied i later
    obtain ⟨x', ending, solves⟩ := ih (Nat.le_of_succ_le within) _ extended
    refine ⟨x', ?_, solves⟩
    rw [backSubstitute, found]
    exact ending

/-- Back substitution in a matrix whose columns are all treated finds a solution. -/
theorem backSubstitute_solves {m : Augmented n} (reduced : Reduced n m)
    (start : Vector Fraction n) :
    ∃ x, (backSubstitute m (List.finRange n).reverse start).ending = .ok x ∧
      m.Solves (values x) := by
  have whole : (List.finRange n).take n = List.finRange n := List.take_of_length_le (by simp)
  obtain ⟨x, ending, solves⟩ :=
    backSubstitute_ending reduced le_rfl start fun i low => absurd low (not_le.2 i.isLt)
  rw [whole] at ending
  exact ⟨x, ending, solves⟩

end Stepwise.Linear
