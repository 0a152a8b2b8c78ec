import Stepwise.Decimal.Text

/-!
# Exact fractions

- `Fraction`: a rational number in lowest terms, so that equal numbers are equal values
- arithmetic without rounding, `Fraction.divide` failing on a zero divisor only
- `Fraction.ofFloat`: a float cut off after its fifth decimal place
- `Fraction.toFloat`: numerator and denominator rounded, then divided
-/

namespace Stepwise

/-- A rational number in lowest terms. The sign belongs to the numerator, and zero is `0 / 1`. -/
structure Fraction where
  num : Int
  den : Nat
  den_pos : 0 < den := by decide
  coprime : num.natAbs.Coprime den := by decide
deriving DecidableEq

namespace Fraction

inductive Error where
  | zeroDenominator
  | divideByZero
  | notFinite (value : Float)

def Error.message : Error → String
  | .zeroDenominator => "denominator cannot be zero"
  | .divideByZero => "cannot divide by zero"
  | .notFinite value => "value is not finite: " ++ Decimal.plainText value

/-- The fraction `num / den` in lowest terms. -/
def reduce (num : Int) (den : Nat) (den_pos : 0 < den) : Fraction where
  num := num / (num.natAbs.gcd den : Nat)
  den := den / num.natAbs.gcd den
  den_pos := Nat.div_gcd_pos_of_pos_right _ den_pos
  coprime := by
    have positive : 0 < num.natAbs.gcd den := Nat.gcd_pos_of_pos_right _ den_pos
    have divides : ((num.natAbs.gcd den : Nat) : Int) ∣ num :=
      Int.ofNat_dvd_left.2 (Nat.gcd_dvd_left _ _)
    rw [Int.natAbs_ediv_of_dvd divides]
    exact Nat.coprime_div_gcd_div_gcd positive

def make (num den : Int) : Except Error Fraction :=
  if nonzero : den = 0 then .error .zeroDenominator
  else .ok (reduce (num * den.sign) den.natAbs (Int.natAbs_pos.2 nonzero))

def ofInt (n : Int) : Fraction where
  num := n
  den := 1
  coprime := Nat.coprime_one_right _

instance : Zero Fraction := ⟨ofInt 0⟩
instance : One Fraction := ⟨ofInt 1⟩
instance : Inhabited Fraction := ⟨0⟩

def isZero (a : Fraction) : Bool := a.num == 0

/-! ## Arithmetic -/

/-- The sum, over the product of the denominators. -/
def add (a b : Fraction) : Fraction :=
  reduce (a.num * b.den + b.num * a.den) (a.den * b.den) (Nat.mul_pos a.den_pos b.den_pos)

def neg (a : Fraction) : Fraction where
  num := -a.num
  den := a.den
  den_pos := a.den_pos
  coprime := by rw [Int.natAbs_neg]; exact a.coprime

def mul (a b : Fraction) : Fraction :=
  reduce (a.num * b.num) (a.den * b.den) (Nat.mul_pos a.den_pos b.den_pos)

instance : Add Fraction := ⟨add⟩
instance : Neg Fraction := ⟨neg⟩
instance : Sub Fraction := ⟨fun a b => a + -b⟩
instance : Mul Fraction := ⟨mul⟩

def abs (a : Fraction) : Fraction where
  num := a.num.natAbs
  den := a.den
  den_pos := a.den_pos
  coprime := by rw [Int.natAbs_natCast]; exact a.coprime

def divide (a b : Fraction) : Except Error Fraction :=
  if nonzero : b.num = 0 then .error .divideByZero
  else
    .ok (reduce (a.num * b.den * b.num.sign) (a.den * b.num.natAbs)
      (Nat.mul_pos a.den_pos (Int.natAbs_pos.2 nonzero)))

/-! ## Order -/

instance : Ord Fraction := ⟨fun a b => compare (a.num * b.den) (b.num * a.den)⟩

instance : LT Fraction := ltOfOrd
instance : LE Fraction := leOfOrd
instance : Max Fraction := ⟨fun a b => if (compare a b).isLE then b else a⟩
instance : Min Fraction := ⟨fun a b => if (compare a b).isLE then a else b⟩

/-! ## Floats -/

/-- How far a float is scaled before it is cut off: five decimal places. -/
def scale : Nat := 100000

/-- The float times the scale, cut off toward zero, over the scale. -/
def ofFloat (value : Float) : Except Error Fraction :=
  match (Binary64.ofFloat (value * scale.toFloat)).truncate? with
  | none => .error (.notFinite value)
  | some whole => .ok (reduce whole scale (by decide))

/-- Numerator and denominator, each rounded to the nearest float, and then divided. -/
def toFloat (a : Fraction) : Float := Float.ofInt a.num / Float.ofNat a.den

/-! ## Text -/

/-- A whole number by itself, any other fraction with a stroke. -/
def text (a : Fraction) : String :=
  if a.den = 1 then toString a.num else toString a.num ++ "/" ++ toString a.den

instance : ToString Fraction := ⟨text⟩

end Fraction

end Stepwise
