import Mathlib
import Stepwise.Proofs.Fraction.Value
import Stepwise.Proofs.Text.Fields

/-!
# Reading the text of a fraction

`read` is the rational number that a text shows. The text of a fraction shows its value, so that
fractions with the same text are the same.
-/

namespace Stepwise.Fraction

/-- The rational number written as an integer or as a numerator over a denominator. -/
def read (text : String) : Option ℚ :=
  match fields '/' text with
  | [num] => num.toInt?.map Int.cast
  | [num, den] => do return (← num.toInt?) / (← den.toNat?)
  | _ => none

theorem isDigit_of_mem_toString_nat {n : ℕ} {c : Char} (member : c ∈ (toString n).toList) :
    c.isDigit = true := by
  change c ∈ (String.ofList (Nat.toDigits 10 n)).toList at member
  rw [String.toList_ofList] at member
  exact Nat.isDigit_of_mem_toDigits (by decide) (by decide) member

theorem mem_toString_int {n : ℤ} {c : Char} (member : c ∈ (toString n).toList) :
    c = '-' ∨ c.isDigit = true := by
  change c ∈ n.repr.toList at member
  cases n with
  | ofNat n => exact .inr (isDigit_of_mem_toString_nat member)
  | negSucc n =>
    rw [Int.repr, String.toList_append, List.mem_append] at member
    obtain sign | digit := member
    · exact .inl (List.mem_singleton.1 sign)
    · exact .inr (isDigit_of_mem_toString_nat digit)

/-- Fractions are written with digits, a minus sign and a stroke. -/
theorem mem_text {a : Fraction} {c : Char} (member : c ∈ a.text.toList) :
    c = '-' ∨ c = '/' ∨ c.isDigit = true := by
  rw [text] at member
  split at member
  next => exact (mem_toString_int member).imp_right .inr
  next =>
    simp only [String.toList_append, List.mem_append] at member
    obtain (num | stroke) | den := member
    · exact (mem_toString_int num).imp_right .inr
    · exact .inr (.inl (List.mem_singleton.1 stroke))
    · exact .inr (.inr (isDigit_of_mem_toString_nat den))

/-- The text of a fraction shows its value. -/
theorem read_text (a : Fraction) : read a.text = some a.value := by
  have num : '/' ∉ (toString a.num).toList := fun member => by
    obtain sign | digit := mem_toString_int member
    · cases sign
    · cases digit
  have den : '/' ∉ (toString a.den).toList := fun member => by
    cases isDigit_of_mem_toString_nat member
  have readNum : (toString a.num).toInt? = some a.num := Int.toInt?_repr a.num
  have readDen : (toString a.den).toNat? = some a.den := Nat.toNat?_repr a.den
  rw [text]
  split
  next whole =>
    rw [read, fields_of_notMem num]
    simp only [readNum, Option.map_some, value, whole, Nat.cast_one, div_one]
  next =>
    have parted : fields '/' (toString a.num ++ "/" ++ toString a.den) =
        [toString a.num, toString a.den] := by
      rw [← fields_intercalate (List.cons_ne_nil _ _) (List.forall_mem_cons.2
        ⟨num, List.forall_mem_singleton.2 den⟩), String.intercalate_cons_cons,
        String.intercalate_singleton]
      rfl
    rw [read, parted]
    simp only [readNum, readDen]
    rfl

/-- Fractions have the same text only if they are the same. -/
theorem text_injective : Function.Injective text := fun a b same =>
  value_injective (Option.some.inj (by rw [← read_text, ← read_text, same]))

end Stepwise.Fraction
