import Stepwise.NumberFormat
import Stepwise.Proofs.Binary64

/-!
# The fixed-point text of a finite float

A finite float with a fixed number of digits after the point is written as an optional minus sign,
digits, a point and as many digits.
-/

namespace Stepwise.Decimal

theorem isDigit_of_mem_digits {n : Nat} {c : Char} (member : c ∈ digits n) : c.isDigit = true := by
  rw [digits_eq] at member
  exact Nat.isDigit_of_mem_toDigits (by decide) (by decide) member

theorem digits_ne_nil (n : Nat) : digits n ≠ [] := by
  rw [digits_eq]
  exact Nat.toDigits_ne_nil

/-- Digits on both sides of the point; how many behind it is given. -/
theorem exists_pointed {places : Nat} (positive : 0 < places) (n : Nat) :
    ∃ whole part, pointed places n = whole ++ '.' :: part ∧ whole ≠ [] ∧ part.length = places ∧
      ∀ c ∈ whole ++ part, c.isDigit = true := by
  -- The digits behind the point may need zeros before them, but none is cut off.
  have short : (digits (n % 10 ^ places)).length ≤ places := by
    rw [digits_eq, Nat.length_toDigits_le_iff (by decide) positive]
    exact Nat.mod_lt n (Nat.pow_pos (by decide))
  refine ⟨digits (n / 10 ^ places),
    List.replicate (places - (digits (n % 10 ^ places)).length) '0' ++ digits (n % 10 ^ places),
    ?_, digits_ne_nil _, ?_, ?_⟩
  · rw [pointed, if_neg (Nat.ne_of_gt positive)]
    simp
  · rw [List.length_append, List.length_replicate]
    omega
  · intro c member
    simp only [List.mem_append, List.mem_replicate] at member
    rcases member with whole | ⟨-, rfl⟩ | part
    · exact isDigit_of_mem_digits whole
    · rfl
    · exact isDigit_of_mem_digits part

/-- The text of a finite float, taken apart. -/
theorem exists_fixedText {x : Float} (finite : x.isFinite = true) {places : Nat}
    (positive : 0 < places) :
    ∃ (negative : Bool) (whole part : List Char),
      (fixedText places x).toList =
        (if negative then '-' :: whole ++ '.' :: part else whole ++ '.' :: part) ∧
      whole ≠ [] ∧ part.length = places ∧ ∀ c ∈ whole ++ part, c.isDigit = true := by
  obtain ⟨negative, m, parts⟩ := Binary64.exists_finite_of_isFinite finite
  obtain ⟨whole, part, split, nonempty, length, all⟩ :=
    exists_pointed positive (roundHalfEven (m.num * 10 ^ places) m.den)
  refine ⟨negative, whole, part, ?_, nonempty, length, all⟩
  rw [fixedText, parts, Binary64.text, Binary64.text.signed, String.toList_ofList, fixed, split]
  rfl

end Stepwise.Decimal
