import Stepwise.Decimal.Text

/-!
# Number formats

How the numbers of a solution are written: with as many digits after the point as the tolerance has.

- `FixedPlaces`: a number of digits after the point
- `FixedPlaces.forTolerance`: four for `1e-4`, two for `0.05`, one from `0.1` on
- `NumberFormats`: the format of the numbers shown, and of those put into a formula
-/

namespace Stepwise

structure FixedPlaces where
  places : Nat
deriving DecidableEq, Repr

namespace FixedPlaces

/-- Three digits, where no tolerance is at hand. -/
def standard : FixedPlaces := ⟨3⟩

/-- The least number of digits, at least one, whose last one does not exceed the tolerance. Where
the logarithm of the tolerance is not finite, one digit is shown. -/
def digitsFor (tolerance : Float) : Nat :=
  let places := (-tolerance.log10).ceil
  if !places.isFinite || places < 1.0 then 1 else places.toUInt64.toNat

def forTolerance (tolerance : Float) : FixedPlaces := ⟨digitsFor tolerance⟩

def text (format : FixedPlaces) (x : Float) : String := Decimal.fixedText format.places x

end FixedPlaces

/-- The formats of one solution. -/
structure NumberFormats where
  /-- Of every number that is shown by itself. -/
  shown : FixedPlaces
  /-- Of the numbers put in place of a formula's variable. -/
  substituted : FixedPlaces
deriving DecidableEq, Repr

namespace NumberFormats

def standard : NumberFormats := ⟨.standard, .standard⟩

/-- Both formats follow the tolerance. -/
def forTolerance (tolerance : Float) : NumberFormats :=
  ⟨.forTolerance tolerance, .forTolerance tolerance⟩

end NumberFormats

end Stepwise
