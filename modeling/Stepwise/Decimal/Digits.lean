/-!
# Decimal digits

- `Decimal.digits`: the digits of a natural number
- `Decimal.digits_eq`: they are those of `Nat.toDigits`, which is slow for large numbers
- `Decimal.lastDigits`: a given number of digits, counted from the last
-/

namespace Stepwise.Decimal

-- Powers of natural numbers are those of the core library, whatever else is imported.
attribute [local instance (2000)] instPowNat

/-- The last `count` digits of a natural number, zeros in front included. -/
def lastDigits : (count n : Nat) → List Char
  | 0, _ => []
  | count + 1, n => lastDigits count (n / 10) ++ [(n % 10).digitChar]

/-- How many digits are split off at once: as many as fit a machine word. -/
def block : Nat := 16

/-- The digits of a natural number of any size, split off block by block. A division of a large
number is dear, so there should be few of them. -/
def longDigits (n : Nat) : List Char :=
  if n < 10 ^ block then Nat.toDigits 10 n
  else longDigits (n / 10 ^ block) ++ lastDigits block (n % 10 ^ block)
termination_by n
decreasing_by
  rename_i long
  have positive : 0 < 10 ^ block := by decide
  exact Nat.div_lt_self (Nat.lt_of_lt_of_le positive (Nat.le_of_not_lt long)) (by decide)

/-- The decimal digits of a natural number, the first of them not zero unless it stands alone. -/
def digits (n : Nat) : List Char := if n < 10 ^ block then Nat.toDigits 10 n else longDigits n

theorem lastDigits_mod (count n : Nat) :
    lastDigits count (n % 10 ^ count) = lastDigits count n := by
  induction count generalizing n with
  | zero => rfl
  | succ count ih =>
    simp only [lastDigits]
    rw [Nat.pow_succ', Nat.mod_mul_right_div_self, ih, Nat.mod_mul_right_mod]

theorem toDigits_eq_append_lastDigits {count n : Nat} (long : 10 ^ count ≤ n) :
    Nat.toDigits 10 n = Nat.toDigits 10 (n / 10 ^ count) ++ lastDigits count n := by
  induction count generalizing n with
  | zero => simp [lastDigits]
  | succ count ih =>
    rw [Nat.pow_succ'] at long ⊢
    have shorter : 10 ^ count ≤ n / 10 := (Nat.le_div_iff_mul_le (by decide)).2 (by omega)
    have positive : 0 < 10 ^ count := Nat.pow_pos (by decide)
    rw [Nat.toDigits_of_base_le (by decide) (by omega), ih shorter, Nat.div_div_eq_div_mul,
      lastDigits, List.append_assoc]

theorem longDigits_eq (n : Nat) : longDigits n = Nat.toDigits 10 n := by
  fun_induction longDigits n with
  | case1 => rfl
  | case2 n long ih =>
    rw [ih, lastDigits_mod, toDigits_eq_append_lastDigits (Nat.le_of_not_lt long)]

/-- Splitting off blocks makes no difference. -/
theorem digits_eq (n : Nat) : digits n = Nat.toDigits 10 n := by
  simp only [digits, longDigits_eq, ite_self]

end Stepwise.Decimal
