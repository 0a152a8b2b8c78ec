/-!
# Binary64 numbers, taken apart

The exact value behind a `Float`, for the parts of the library that print numbers or turn them into
fractions.

- `Magnitude`: a number `mantissa * 2 ^ exponent`, with its numerator and denominator
- `Binary64`: a sign and a magnitude, an infinity, or no number
- `Binary64.ofFloat`: the parts of a `Float`
- `Binary64.truncate?`: the integer left when the fractional part is dropped
-/

namespace Stepwise

-- Powers of natural numbers are those of the core library, whatever else is imported.
attribute [local instance (2000)] instPowNat

/-- The number `mantissa * 2 ^ exponent`. -/
structure Magnitude where
  mantissa : Nat
  exponent : Int
deriving DecidableEq, Repr

namespace Magnitude

def num (m : Magnitude) : Nat := m.mantissa * 2 ^ m.exponent.toNat

/-- The denominator, a power of two: `1` unless the exponent is negative. -/
def den (m : Magnitude) : Nat := 2 ^ (-m.exponent).toNat

end Magnitude

/-- What a `Float` denotes. Both zeros are finite, with mantissa `0`. -/
inductive Binary64 where
  | nan
  | infinite (negative : Bool)
  | finite (negative : Bool) (magnitude : Magnitude)
deriving DecidableEq, Repr

namespace Binary64

/-- The exponent of the smallest positive number, which the zeros and subnormals share. -/
def minExponent : Int := -1074

/-- Takes a `Float` apart. The mantissa of a normal number has 53 binary digits. -/
def ofFloat (x : Float) : Binary64 :=
  match x.toModel.unpack with
  | .notANumber => .nan
  | .infinity sign => .infinite (sign == .negative)
  | .zero sign => .finite (sign == .negative) ⟨0, minExponent⟩
  | .finite sign mantissa exponent _ => .finite (sign == .negative) ⟨mantissa, exponent⟩

def truncate? : Binary64 → Option Int
  | .finite negative m =>
    let whole : Int := (m.num / m.den : Nat)
    some (if negative then -whole else whole)
  | _ => none

/-- The text of a number whose magnitude `write` writes: the sign stands in front, that of a
negative zero too, and what is not a number has no sign. -/
def text (write : Magnitude → List Char) : Binary64 → String
  | .nan => "NaN"
  | .infinite negative => signed negative ['i', 'n', 'f']
  | .finite negative m => signed negative (write m)
where
  signed (negative : Bool) (digits : List Char) : String :=
    String.ofList (if negative then '-' :: digits else digits)

end Binary64

end Stepwise
