import Stepwise.Linear.Report
import Stepwise.Linear.System

/-!
# Gaussian elimination

- `RowOperation`: what elimination does to the augmented matrix, as data
- `eliminate`: makes the matrix triangular, leaving each operation behind with its result
- `backSubstitute`: solves a triangular system from the last row upward
- `gaussian`: the report of the method
-/

namespace Stepwise.Linear

/-- A square matrix with the constants as a further column. -/
abbrev Augmented (n : Nat) := Table Fraction n (n + 1)

variable {n : Nat}

def System.augmented (s : System Fraction n) : Augmented n :=
  Vector.zipWith (fun row constant => row.push constant) s.coefficients s.constants

def Augmented.coefficient (m : Augmented n) (i j : Fin n) : Fraction := m.entry i j.castSucc

def Augmented.constant (m : Augmented n) (i : Fin n) : Fraction := m.entry i (Fin.last n)

/-! ## Row operations -/

inductive RowOperation (n : Nat) where
  | swap (i j : Fin n)
  /-- Subtracts a multiple of one row from another. -/
  | subtract (target source : Fin n) (factor : Fraction)

namespace RowOperation

def apply : RowOperation n → Augmented n → Augmented n
  | .swap i j, m => m.swap i j i.isLt j.isLt
  | .subtract target source factor, m =>
    m.set target (Vector.zipWith (fun a b => a - factor * b) (m.get target) (m.get source))
      target.isLt

def heading : RowOperation n → String
  | .swap i j => "Swapped rows " ++ toString (i.val + 1) ++ " and " ++ toString (j.val + 1) ++ ":"
  | .subtract target source factor =>
    "Row " ++ toString (target.val + 1) ++ " updated by subtracting " ++ factor.text ++ " * Row " ++
      toString (source.val + 1) ++ ":"

end RowOperation

structure Snapshot (n : Nat) where
  operation : RowOperation n
  matrix : Augmented n

def Snapshot.lines (s : Snapshot n) : List String :=
  s.operation.heading :: s.matrix.lines ++ [""]

/-! ## Elimination -/

def perform (operation : RowOperation n) (m : Augmented n) :
    Trail (Snapshot n) Error (Augmented n) := do
  let matrix := operation.apply m
  .write [{ operation, matrix }]
  return matrix

/-- The row, from `column` downward, whose entry in the column is greatest in magnitude; of several,
the uppermost. -/
def pivotRow (m : Augmented n) (column : Fin n) : Fin n :=
  let size (i : Fin n) : Fraction := (m.coefficient i column).abs
  (after column).foldl
    (fun best i => if (compare (size best) (size i)).isLT then i else best) column

def clearColumn (column : Fin n) :
    List (Fin n) → Augmented n → Trail (Snapshot n) Error (Augmented n)
  | [], m => pure m
  | row :: rows, m => do
    let factor ← .ofExcept
      (((m.coefficient row column).divide (m.coefficient column column)).mapError .fraction)
    let m ← perform (.subtract row column factor) m
    clearColumn column rows m

def eliminateColumn (column : Fin n) (m : Augmented n) :
    Trail (Snapshot n) Error (Augmented n) := do
  let pivot := pivotRow m column
  let m ← if pivot = column then pure m else perform (.swap column pivot) m
  if (m.coefficient column column).isZero then .fail (.zeroPivot (column.val + 1))
  else clearColumn column (after column) m

def eliminate : List (Fin n) → Augmented n → Trail (Snapshot n) Error (Augmented n)
  | [], m => pure m
  | column :: columns, m => do
    let m ← eliminateColumn column m
    eliminate columns m

/-! ## Back substitution -/

/-- The value of an unknown, given those after it: the constant less their terms, over the entry on
the diagonal. -/
def backValue (m : Augmented n) (x : Vector Fraction n) (i : Fin n) : Except Error Fraction :=
  let sum := (after i).foldl (fun sum j => sum - m.coefficient i j * x.get j) (m.constant i)
  (sum.divide (m.coefficient i i)).mapError .fraction

def backSubstitute (m : Augmented n) :
    List (Fin n) → Vector Fraction n → Trail (Fin n × Fraction) Error (Vector Fraction n)
  | [], x => pure x
  | i :: rows, x => do
    let value ← .ofExcept (backValue m x i)
    .write [(i, value)]
    backSubstitute m rows (x.set i value i.isLt)

/-! ## The method -/

def unknown (i : Nat) : String := "x" ++ toString (i + 1)

def gaussianTrail (setup : Setup) (s : System Float n) :
    Trail String Error (List Fraction) := do
  let exact ← .ofExcept s.exact
  let initial := exact.augmented
  .write ("Augmented Matrix (Initial):" :: initial.lines ++ [""])
  let triangular ← (eliminate (List.finRange n) initial).expand Snapshot.lines
  .write ["Back Substitution:"]
  let solution ←
    (backSubstitute triangular (List.finRange n).reverse (Vector.replicate n 0)).expand
      fun (i, value) =>
        [unknown i ++ " = " ++ value.text ++ " ≈ " ++ setup.number value.toFloat]
  return solution.toList

def gaussianAnswers (setup : Setup) (values : List Fraction) : List String :=
  "Decimal Form:" ::
    values.mapIdx (fun i value => unknown i ++ " = " ++ setup.number value.toFloat) ++
    ["", "Fraction Form:"] ++ values.mapIdx fun i value => unknown i ++ " = " ++ value.text

def gaussian (title : String) (setup : Setup) (s : System Float n) : Report Fraction :=
  .ofTrail title (gaussianTrail setup s) (gaussianAnswers setup)

end Stepwise.Linear
