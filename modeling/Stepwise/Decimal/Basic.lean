import Stepwise.Binary64
import Stepwise.Decimal.Digits

/-!
# Decimal numbers and their digits

- `Decimal`: a number `coefficient * 10 ^ exponent`
- `Decimal.exact`: every magnitude is a decimal
- `Decimal.reduce`: the same number without trailing zeros in the coefficient
- `Decimal.leadingPower`: the place of the first digit of a quotient
- `Decimal.pointed`, `Decimal.plain`, `Decimal.scientific`: the two ways of writing digits
-/

namespace Stepwise

-- Powers of natural numbers are those of the core library, whatever else is imported.
attribute [local instance (2000)] instPowNat

/-- The number `coefficient * 10 ^ exponent`. -/
structure Decimal where
  coefficient : Nat
  exponent : Int
deriving DecidableEq, Repr

namespace Decimal

/-- A magnitude, written out in full: a negative power of two is a power of five over one of ten. -/
def exact (m : Magnitude) : Decimal where
  coefficient := m.num * 5 ^ (-m.exponent).toNat
  exponent := min m.exponent 0

/-- Moves the trailing zeros of the coefficient into the exponent. -/
def reduce (d : Decimal) : Decimal :=
  if d.coefficient = 0 then ⟨0, 0⟩ else strip d.coefficient d.exponent
where
  strip (coefficient : Nat) (exponent : Int) : Decimal :=
    if 0 < coefficient ∧ coefficient % 10 = 0 then strip (coefficient / 10) (exponent + 1)
    else ⟨coefficient, exponent⟩
  termination_by coefficient
  decreasing_by omega

/-- The power of ten of the first digit of `num / den`, for positive numbers: the greatest `k` with
`10 ^ k ≤ num / den`. It is the difference of the digit counts or one less. -/
def leadingPower (num den : Nat) : Int :=
  let k : Int := (digits num).length - (digits den).length
  if den * 10 ^ k.toNat ≤ num * 10 ^ (-k).toNat then k else k - 1

/-- The digits of `n / 10 ^ places`, with a point before the last `places` of them. -/
def pointed (places n : Nat) : List Char :=
  let part := digits (n % 10 ^ places)
  if places = 0 then digits n
  else digits (n / 10 ^ places) ++ '.' :: List.replicate (places - part.length) '0' ++ part

def plain (d : Decimal) : List Char :=
  pointed (-d.exponent).toNat (d.coefficient * 10 ^ d.exponent.toNat)

/-- A number by its digits and the power of ten of the first one: `1.25e-3`, with no point after a
digit that stands alone. -/
def scientific (ds : List Char) (power : Int) : List Char :=
  ds.take 1 ++ (if ds.length ≤ 1 then [] else '.' :: ds.drop 1) ++ 'e' :: (toString power).toList

end Decimal

end Stepwise
