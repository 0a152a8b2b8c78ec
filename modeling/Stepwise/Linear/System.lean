import Stepwise.Linear.Error
import Stepwise.Linear.Table
import Stepwise.NumberFormat

/-!
# Systems of linear equations

- `System`: as many equations as unknowns
- `System.check`: makes a system of lists of floats, or says what is wrong with them first
- `System.exact`: the same system in fractions
- `System.equations`: the system as text
-/

namespace Stepwise.Linear

/-! ## Checking lists -/

section

variable {α β ε : Type}

def prepend {n : Nat} (b : β) (v : Vector β n) : Vector β (n + 1) :=
  ⟨(b :: v.toList).toArray, by simp⟩

/-- Checks the entries of a list in turn, the first one with number `count`. The first error
ends the matter. -/
def checkAll (check : Nat → α → Except ε β) (count : Nat) :
    (entries : List α) → Except ε (Vector β entries.length)
  | [] => .ok #v[]
  | a :: rest =>
    match check count a with
    | .error e => .error e
    | .ok b =>
      match checkAll check (count + 1) rest with
      | .error e => .error e
      | .ok v => .ok (prepend b v)

def checkVector {n : Nat} (check : α → Except ε β) (v : Vector α n) : Except ε (Vector β n) :=
  (checkAll (fun _ => check) 1 v.toList).map (Vector.cast (by simp))

end

/-! ## Systems -/

structure System (α : Type) (n : Nat) where
  coefficients : Table α n n
  constants : Vector α n

def checkRow (expected row : Nat) (values : List Float) : Except Error (Vector Float expected) :=
  if length : values.length = expected then
    (checkAll (fun column value =>
      if value.isFinite then .ok value else .error (.nonFiniteCoefficient row column value))
      1 values).map (Vector.cast length)
  else .error (.notSquare row values.length expected)

def checkSquare (rows : List (List Float)) :
    Except Error (Table Float rows.length rows.length) :=
  if rows.isEmpty then .error .empty else checkAll (checkRow rows.length) 1 rows

def checkConstants (expected : Nat) (values : List Float) :
    Except Error (Vector Float expected) :=
  if length : values.length = expected then
    (checkAll (fun row value =>
      if value.isFinite then .ok value else .error (.nonFiniteConstant row value))
      1 values).map (Vector.cast length)
  else .error (.constantsLength expected values.length)

namespace System

variable {n : Nat}

/-- Makes a system of at least `required` equations. The rows are checked before their number, and
the constants last. -/
def check (required : Nat) (rows : List (List Float)) (constants : List Float) :
    Except Error (System Float rows.length) := do
  let coefficients ← checkSquare rows
  if rows.length < required then
    throw (.tooFewEquations required rows.length)
  return { coefficients, constants := ← checkConstants rows.length constants }

def exact (s : System Float n) : Except Error (System Fraction n) :=
  let convert (value : Float) : Except Error Fraction := (Fraction.ofFloat value).mapError .fraction
  do
    let coefficients ← checkVector (checkVector convert) s.coefficients
    return { coefficients, constants := ← checkVector convert s.constants }

def arrange {α : Type} (s : System α n) (order : Vector (Fin n) n) : System α n where
  coefficients := order.map s.coefficients.get
  constants := order.map s.constants.get

/-! ## Text -/

/-- A term of an equation; all but the first are joined by their sign. -/
def termText (j : Fin n) (coefficient : Float) : String :=
  let text := FixedPlaces.standard.text
  let number :=
    if j.val = 0 then text coefficient
    else if coefficient < 0.0 then " - " ++ text (-coefficient)
    else " + " ++ text coefficient
  number ++ " x" ++ toString (j.val + 1)

def equations (s : System Float n) : List String :=
  (List.finRange n).map fun i =>
    String.join ((List.finRange n).map fun j => termText j (s.coefficients.entry i j)) ++ " = " ++
      FixedPlaces.standard.text (s.constants.get i)

end System

end Stepwise.Linear
