/-!
# Rounding a quotient

`roundHalfEven num den` is the natural number nearest to `num / den`; of two equally near ones, the
even one.
-/

namespace Stepwise.Decimal

/-- Rounds a quotient to the nearest natural number, a half going to the even neighbour. -/
def roundHalfEven (num den : Nat) : Nat :=
  let floor := num / den
  match compare (2 * (num % den)) den with
  | .lt => floor
  | .eq => floor + floor % 2
  | .gt => floor + 1

/-- A quotient without remainder stays as it is. -/
theorem roundHalfEven_mul (q : Nat) {den : Nat} (positive : 0 < den) :
    roundHalfEven (q * den) den = q := by
  have below : compare (2 * (q * den % den)) den = .lt := by
    rw [Nat.mul_mod_left, Nat.compare_eq_lt]
    exact positive
  simp only [roundHalfEven, below]
  exact Nat.mul_div_cancel q positive

/-- The rounded quotient is within half a unit of the quotient. -/
theorem two_mul_dist_roundHalfEven (num : Nat) {den : Nat} (positive : 0 < den) :
    2 * num ≤ (2 * roundHalfEven num den + 1) * den ∧
      2 * roundHalfEven num den * den ≤ 2 * num + den := by
  have division : den * (num / den) + num % den = num := Nat.div_add_mod num den
  have bound : num % den < den := Nat.mod_lt _ positive
  have parity : num / den % 2 ≤ 1 := by omega
  simp only [roundHalfEven]
  rcases order : compare (2 * (num % den)) den with _ | _ | _ <;> simp only
  · rw [Nat.compare_eq_lt] at order
    constructor <;> grind
  · rw [Nat.compare_eq_eq] at order
    rcases Nat.mod_two_eq_zero_or_one (num / den) with even | odd
    · rw [even]
      constructor <;> grind
    · rw [odd]
      constructor <;> grind
  · rw [Nat.compare_eq_gt] at order
    constructor <;> grind

end Stepwise.Decimal
