import Stepwise.Decimal.Basic

/-!
# Shortest digits

The fewest significant digits that read back as the same float, and of these the ones nearest to its
value.

All reals of an interval around a float round to that float; its ends do so too when the mantissa is
even. `Decimal.shortest` walks from one significant digit to seventeen, and on each grid of decimals
tests the two neighbours of the value against that interval.
-/

namespace Stepwise

-- Powers of natural numbers are those of the core library, whatever else is imported.
attribute [local instance (2000)] instPowNat

/-- The interval of reals that round to a float, its ends counted in quarters of the unit of the
float's last binary digit. -/
structure RoundingInterval where
  low : Nat
  value : Nat
  high : Nat
  closed : Bool

namespace RoundingInterval

/-- The interval reaches half a unit to both sides, but only a quarter below a power of two, where
the numbers lie twice as dense. -/
def ofMagnitude (m : Magnitude) : RoundingInterval where
  low := 4 * m.mantissa -
    if m.mantissa = 2 ^ (52 : Nat) ∧ Binary64.minExponent < m.exponent then 1 else 2
  value := 4 * m.mantissa
  high := 4 * m.mantissa + 2
  closed := m.mantissa % 2 = 0

/-- Whether a number lies inside, all of them counted in the same unit. -/
def holds (i : RoundingInterval) (x : Nat) : Bool :=
  if i.closed then i.low ≤ x && x ≤ i.high else i.low < x && x < i.high

/-- The interval in a unit that is `factor` times smaller. -/
def refine (i : RoundingInterval) (factor : Nat) : RoundingInterval :=
  { i with low := i.low * factor, value := i.value * factor, high := i.high * factor }

/-- The multiple of `step` inside the interval that is nearest to the value, by its quotient; of two
equally near ones, the larger. Only the two neighbours of the value need a test. -/
def nearestMultiple? (i : RoundingInterval) (step : Nat) : Option Nat :=
  let below := i.value / step
  let above := below + 1
  match i.holds (below * step), i.holds (above * step) with
  | true, true => if i.value - below * step < above * step - i.value then some below else some above
  | true, false => some below
  | false, true => some above
  | false, false => none

end RoundingInterval

namespace Decimal

/-- The decimal `c * 10 ^ k` nearest to a magnitude, if one rounds to it. Quarter units and powers
of ten are brought to a common unit. -/
def onGrid? (m : Magnitude) (k : Int) : Option Decimal :=
  let quarter := m.exponent - 2
  let interval := (RoundingInterval.ofMagnitude m).refine (2 ^ quarter.toNat * 10 ^ (-k).toNat)
  (interval.nearestMultiple? (10 ^ k.toNat * 2 ^ (-quarter).toNat)).map (⟨·, k⟩)

/-- The shortest decimal that reads back as the float of this magnitude. Seventeen digits always
suffice. -/
def shortest (m : Magnitude) : Decimal :=
  if m.mantissa = 0 then ⟨0, 0⟩
  else
    let power := leadingPower m.num m.den
    let found := (List.range 17).findSome? fun (count : Nat) => onGrid? m (power - count)
    (found.getD (exact m)).reduce

end Decimal

end Stepwise
