import Stepwise.Proofs.Binary64.Scientific
import Stepwise.Proofs.Formula.Parts

/-!
# What number literals stand for

A literal is read as the float nearest to its digits times its power of ten, and as infinity where
that is beyond all floats. The number is told by the places of the digits here, not by the way in
which they are read.

- `placed`: a row of digits by their places
- `Amounts`, `Scales`: the number before the exponent of a literal, and its power of ten
- `Denotes`: the float that a literal stands for
- `denotes_iff`: it is the one that the literal is read as
- `exists_denotes_iff`: the floats without a sign are those that have a literal
-/

namespace Stepwise.Formula

open Binary64 (IsNearest Unsigned isNearest_ofScientific unsigned_ofScientific)

/-! ## Digits and their places -/

/-- A row of digits. The first of them counts `place`, and each other a tenth of the one before. -/
def placed (place : ℚ) : List Char → ℚ
  | [] => 0
  | c :: digits => (c.toNat - '0'.toNat : ℕ) * place + placed (place / 10) digits

/-- The number before the exponent. The digit before the point, or the last one if there is no
point, counts one. -/
inductive Amounts : List Char → ℚ → Prop where
  | whole {digits : List Char} (nonempty : digits ≠ []) (all : ∀ c ∈ digits, c.isDigit = true) :
    Amounts digits (placed (10 ^ (digits.length - 1 : ℤ)) digits)
  | pointed {whole part : List Char} (nonempty : whole ++ part ≠ [])
    (all : ∀ c ∈ whole ++ part, c.isDigit = true) :
    Amounts (whole ++ '.' :: part) (placed (10 ^ (whole.length - 1 : ℤ)) (whole ++ part))

/-- The power of ten that an exponent stands for. -/
inductive Scales : List Char → ℤ → Prop where
  | none : Scales [] 0
  | raised {mark : Char} {sign digits : List Char} {k : ℕ} (isMark : mark = 'e' ∨ mark = 'E')
    (isSign : sign = [] ∨ sign = ['+']) (nonempty : digits ≠ [])
    (all : ∀ c ∈ digits, c.isDigit = true)
    (amount : placed (10 ^ (digits.length - 1 : ℤ)) digits = k) : Scales (mark :: sign ++ digits) k
  | lowered {mark : Char} {digits : List Char} {k : ℕ} (isMark : mark = 'e' ∨ mark = 'E')
    (nonempty : digits ≠ []) (all : ∀ c ∈ digits, c.isDigit = true)
    (amount : placed (10 ^ (digits.length - 1 : ℤ)) digits = k) :
    Scales (mark :: '-' :: digits) (-k)

/-- A literal stands for the nearest float to its number, for infinity if that is beyond all floats.
It has no sign, and what is rounded to zero has none either. -/
inductive Denotes (mantissa exponent : List Char) (value : Float) : Prop where
  | intro {q : ℚ} {k : ℤ} (amounts : Amounts mantissa q) (scales : Scales exponent k)
    (nearest : IsNearest (q * 10 ^ k) value) (unsigned : Unsigned value)

variable {mantissa exponent : List Char} {value : Float} {q : ℚ} {k : ℤ}

theorem digitsValue_cons (c : Char) (digits : List Char) :
    digitsValue (c :: digits) =
      10 ^ digits.length * (c.toNat - '0'.toNat) + digitsValue digits := by
  rw [digitsValue, Nat.ofDigitChars_cons, Nat.mul_zero, Nat.zero_add]
  exact Nat.ofDigitChars_eq_ofDigitChars_zero

/-- The digits as one whole number, of which as many are behind the point as are left. -/
theorem placed_eq (w : ℤ) (digits : List Char) :
    placed (10 ^ (w - 1)) digits = digitsValue digits * 10 ^ (w - digits.length) := by
  induction digits generalizing w with
  | nil => simp [placed, digitsValue]
  | cons c digits ih =>
    have tenth : (10 ^ (w - 1) / 10 : ℚ) = 10 ^ (w - 1 - 1) := by
      rw [zpow_sub_one₀ (by norm_num) (w - 1), div_eq_mul_inv]
    have first : (10 ^ (w - 1) : ℚ) = 10 ^ digits.length * 10 ^ (w - 1 - digits.length) := by
      rw [← zpow_natCast, ← zpow_add₀ (by norm_num)]
      congr 1
      omega
    have last : w - (digits.length + 1 : ℕ) = w - 1 - digits.length := by omega
    rw [placed, tenth, ih, digitsValue_cons, List.length_cons, last, first]
    push_cast
    ring

theorem placed_units (digits : List Char) :
    placed (10 ^ (digits.length - 1 : ℤ)) digits = digitsValue digits := by
  rw [placed_eq, sub_self, zpow_zero, mul_one]

theorem exists_amounts_iff : (∃ q, Amounts mantissa q) ↔ IsMantissa mantissa := by
  constructor
  · rintro ⟨_, ⟨nonempty, all⟩ | ⟨nonempty, all⟩⟩
    · exact .whole nonempty all
    · exact .pointed nonempty all
  · rintro (⟨nonempty, all⟩ | ⟨nonempty, all⟩)
    · exact ⟨_, .whole nonempty all⟩
    · exact ⟨_, .pointed nonempty all⟩

theorem exists_scales_iff : (∃ k, Scales exponent k) ↔ IsExponent exponent := by
  have marks {c : Char} : isExponentMark c = true ↔ c = 'e' ∨ c = 'E' := by simp [isExponentMark]
  constructor
  · rintro ⟨_, _ | ⟨isMark, isSign, nonempty, all⟩ | ⟨isMark, nonempty, all⟩⟩
    · exact .none
    · exact .some (marks.2 isMark) (isSign.imp_right .inl) nonempty all
    · exact .some (marks.2 isMark) (.inr (.inr rfl)) nonempty all
  · rintro (_ | @⟨mark, sign, digits, isMark, isSign, nonempty, all⟩)
    · exact ⟨0, .none⟩
    · rw [← or_assoc] at isSign
      obtain isSign | rfl := isSign
      · exact ⟨_, .raised (marks.1 isMark) isSign nonempty all (placed_units digits)⟩
      · exact ⟨_, .lowered (marks.1 isMark) nonempty all (placed_units digits)⟩

/-! ## What is read -/

theorem digitsValue_eq {n : ℕ} {digits : List Char}
    (amount : placed (10 ^ (digits.length - 1 : ℤ)) digits = n) : digitsValue digits = n := by
  rw [placed_units] at amount
  exact_mod_cast amount

theorem Scales.exponentValue_eq (scales : Scales exponent k) : exponentValue exponent = k := by
  cases scales with
  | none => rfl
  | @raised mark sign digits k isMark isSign nonempty all amount =>
    have split := splitSign_append_digits (isSign.imp_right .inl) nonempty all []
    rw [List.append_nil] at split
    rw [exponentValue, List.cons_append, List.drop_one, List.tail_cons, split]
    obtain rfl | rfl := isSign
    all_goals exact congrArg Int.ofNat (digitsValue_eq amount)
  | lowered isMark nonempty all amount =>
    exact congrArg (fun n : ℕ => (-n : ℤ)) (digitsValue_eq amount)

/-- The digits before the point and those behind it, of which the number is made up. -/
theorem Amounts.eq_scaled (amounts : Amounts mantissa q) :
    let whole := mantissa.takeWhile Char.isDigit
    let part := (mantissa.dropWhile Char.isDigit).drop 1
    q = digitsValue (whole ++ part) * 10 ^ (-part.length : ℤ) := by
  cases amounts with
  | whole nonempty all =>
    have taken := takeWhile_append_of_avoids all avoids_nil
    have dropped := dropWhile_append_of_avoids all avoids_nil
    rw [List.append_nil] at taken dropped
    simp only [taken, dropped, List.drop_nil, List.append_nil, List.length_nil, Nat.cast_zero,
      neg_zero, zpow_zero, mul_one]
    exact placed_units _
  | @pointed whole part nonempty all =>
    have before : ∀ c ∈ whole, c.isDigit = true := fun c member =>
      all c (List.mem_append_left _ member)
    have point : Avoids Char.isDigit ('.' :: part) := avoids_cons.2 (by decide)
    have behind : (whole.length - (whole ++ part).length : ℤ) = -part.length := by
      rw [List.length_append]
      omega
    simp only [takeWhile_append_of_avoids before point, dropWhile_append_of_avoids before point,
      List.drop_one, List.tail_cons]
    rw [placed_eq, behind]

theorem literalValue_append (isMantissa : IsMantissa mantissa) (isExponent : IsExponent exponent) :
    let whole := mantissa.takeWhile Char.isDigit
    let part := (mantissa.dropWhile Char.isDigit).drop 1
    let power := exponentValue exponent - part.length
    literalValue (mantissa ++ exponent) =
      Float.ofScientific (digitsValue (whole ++ part)) (power < 0) power.natAbs := by
  have noMark : ∀ c ∈ mantissa, (!isExponentMark c) = true := by
    intro c member
    have code := isNumeralPart_iff.1 (isMantissa.all c member)
    rw [Bool.not_eq_true', ← Bool.not_eq_true, isExponentMark_iff]
    omega
  have marked : Avoids (fun c => !isExponentMark c) exponent := by
    cases isExponent with
    | none => exact avoids_nil
    | some isMark => exact avoids_cons.2 (by rw [isMark]; rfl)
  simp only [literalValue, takeWhile_append_of_avoids noMark marked,
    dropWhile_append_of_avoids noMark marked]

/-- What a literal is read as is nearest to its number. -/
theorem isNearest_literalValue (amounts : Amounts mantissa q) (scales : Scales exponent k) :
    IsNearest (q * 10 ^ k) (literalValue (mantissa ++ exponent)) ∧
      Unsigned (literalValue (mantissa ++ exponent)) := by
  have read := literalValue_append (exists_amounts_iff.1 ⟨q, amounts⟩)
    (exists_scales_iff.1 ⟨k, scales⟩)
  have digits := amounts.eq_scaled
  dsimp only at read digits
  rw [scales.exponentValue_eq] at read
  generalize (mantissa.dropWhile Char.isDigit).drop 1 = part at read digits
  generalize digitsValue _ = n at read digits
  have nearest := isNearest_ofScientific n (k - part.length < 0) (k - part.length).natAbs
  have power : (if decide (k - part.length < 0) = true then -(k - part.length).natAbs
      else (k - part.length).natAbs : ℤ) = -part.length + k := by
    simp only [decide_eq_true_eq]
    split <;> omega
  rw [power, zpow_add₀ (by norm_num), ← mul_assoc, ← digits, ← read] at nearest
  exact ⟨nearest, read ▸ unsigned_ofScientific _ _ _⟩

/-- A literal stands for the float that it is read as, and for no other. -/
theorem denotes_iff : Denotes mantissa exponent value ↔
    IsMantissa mantissa ∧ IsExponent exponent ∧ literalValue (mantissa ++ exponent) = value := by
  constructor
  · rintro ⟨amounts, scales, nearest, unsigned⟩
    obtain ⟨read, unsigned'⟩ := isNearest_literalValue amounts scales
    exact ⟨exists_amounts_iff.1 ⟨_, amounts⟩, exists_scales_iff.1 ⟨_, scales⟩,
      read.unique nearest unsigned' unsigned⟩
  · rintro ⟨isMantissa, isExponent, rfl⟩
    obtain ⟨q, amounts⟩ := exists_amounts_iff.2 isMantissa
    obtain ⟨k, scales⟩ := exists_scales_iff.2 isExponent
    obtain ⟨nearest, unsigned⟩ := isNearest_literalValue amounts scales
    exact .intro amounts scales nearest unsigned

theorem denotes_literalValue (isMantissa : IsMantissa mantissa)
    (isExponent : IsExponent exponent) :
    Denotes mantissa exponent (literalValue (mantissa ++ exponent)) :=
  denotes_iff.2 ⟨isMantissa, isExponent, rfl⟩

namespace Denotes

theorem isMantissa (denotes : Denotes mantissa exponent value) : IsMantissa mantissa :=
  (denotes_iff.1 denotes).1

theorem isExponent (denotes : Denotes mantissa exponent value) : IsExponent exponent :=
  (denotes_iff.1 denotes).2.1

theorem literalValue_eq (denotes : Denotes mantissa exponent value) :
    literalValue (mantissa ++ exponent) = value := (denotes_iff.1 denotes).2.2

end Denotes

/-! ## The numbers that have a literal -/

theorem isDigit_of_mem_toDigits {n : ℕ} : ∀ c ∈ Nat.toDigits 10 n, c.isDigit = true :=
  fun _ => Nat.isDigit_of_mem_toDigits (by decide) (by decide)

theorem placed_toDigits (n : ℕ) :
    placed (10 ^ ((Nat.toDigits 10 n).length - 1 : ℤ)) (Nat.toDigits 10 n) = n := by
  rw [placed_units, digitsValue, Nat.ofDigitChars_ten_toDigits]

/-- A number has a literal exactly if it has no sign: every float is a whole number divided by a
power of ten, and infinity is reached by a literal that is too great. -/
theorem exists_denotes_iff :
    (∃ mantissa exponent, Denotes mantissa exponent value) ↔ Unsigned value := by
  constructor
  · rintro ⟨mantissa, exponent, -, -, -, unsigned⟩
    exact unsigned
  · intro unsigned
    obtain ⟨n, k, nearest⟩ := unsigned.exists_decimal
    have amounts := Amounts.whole Nat.toDigits_ne_nil (isDigit_of_mem_toDigits (n := n))
    rw [placed_toDigits] at amounts
    have scales : Scales ('e' :: '-' :: Nat.toDigits 10 k) (-k) :=
      .lowered (.inl rfl) Nat.toDigits_ne_nil isDigit_of_mem_toDigits (placed_toDigits k)
    exact ⟨_, _, .intro amounts scales nearest unsigned⟩

end Stepwise.Formula
