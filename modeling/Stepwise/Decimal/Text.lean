import Stepwise.Decimal.Rounding
import Stepwise.Decimal.Shortest

/-!
# Texts of floats

- `Decimal.plainText`: the shortest digits, never with an exponent
- `Decimal.scientificText`: the shortest digits, always with an exponent
- `Decimal.significantText`: a fixed number of significant digits
- `Decimal.fixedText`: a fixed number of digits after the point

The last two round the exact value, a half going to the even digit.
-/

namespace Stepwise.Decimal

-- Powers of natural numbers are those of the core library, whatever else is imported.
attribute [local instance (2000)] instPowNat

/-- The shortest digits with their exponent. -/
def shortestScientific (m : Magnitude) : List Char :=
  let d := shortest m
  let ds := digits d.coefficient
  scientific ds (d.exponent + (ds.length - 1 : Nat))

/-- Exactly `count` significant digits. Where rounding carries into a new digit, the last one, a
zero, is dropped. -/
def significant (count : Nat) (m : Magnitude) : List Char :=
  if m.mantissa = 0 then scientific (List.replicate count '0') 0
  else
    let power := leadingPower m.num m.den
    let last := power - (count - 1 : Nat)
    let ds := digits (roundHalfEven (m.num * 10 ^ (-last).toNat) (m.den * 10 ^ last.toNat))
    scientific (ds.take count) (power + (ds.length - count : Nat))

def fixed (places : Nat) (m : Magnitude) : List Char :=
  pointed places (roundHalfEven (m.num * 10 ^ places) m.den)

/-- The shortest digits that read back, without an exponent: `0.0000001`, `3`, `-0`. -/
def plainText (x : Float) : String := (Binary64.ofFloat x).text fun m => (shortest m).plain

/-- The shortest digits that read back, with an exponent: `1e-7`, `3e0`, `-0e0`. -/
def scientificText (x : Float) : String := (Binary64.ofFloat x).text shortestScientific

/-- The float rounded to `count` significant digits: `3.00e0` for a count of three. -/
def significantText (count : Nat) (x : Float) : String :=
  (Binary64.ofFloat x).text (significant count)

/-- The float rounded to `places` digits after the point: `3.00` for two places. -/
def fixedText (places : Nat) (x : Float) : String := (Binary64.ofFloat x).text (fixed places)

end Stepwise.Decimal
