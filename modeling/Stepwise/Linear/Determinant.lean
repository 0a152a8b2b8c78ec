import Stepwise.Linear.Report
import Stepwise.Linear.System

/-!
# Determinants and Cramer's rule

- `determinant`: the determinant of a table of fractions, by expansion along the first row
- `replaceColumn`: the table whose determinant gives an unknown
- `cramer`: the report of the method
-/

namespace Stepwise.Linear

variable {n : Nat}

/-! ## Determinants -/

def minor (t : Table Fraction (n + 1) (n + 1)) (column : Fin (n + 1)) : Table Fraction n n :=
  t.tail.map fun row => row.eraseIdx column

/-- One or two rows are multiplied out. More are expanded along the first of them, with alternating
signs; a zero entry adds nothing, so its minor is left alone. -/
def determinant : {n : Nat} → Table Fraction n n → Fraction
  | 0, _ => 1
  | 1, t => t.entry 0 0
  | 2, t => t.entry 0 0 * t.entry 1 1 - t.entry 0 1 * t.entry 1 0
  | n + 3, t =>
    (List.finRange (n + 3)).foldl (fun sum column =>
      let entry := t.entry 0 column
      if entry.isZero then sum
      else
        let term := entry * determinant (minor t column)
        if column.val % 2 = 0 then sum + term else sum - term) 0

def replaceColumn (t : Table Fraction n n) (column : Fin n) (values : Vector Fraction n) :
    Table Fraction n n :=
  Vector.zipWith (fun row value => row.set column value column.isLt) t values

/-! ## Cramer's rule -/

/-- How an unknown is found: the quotient of two determinants. -/
structure CramerStep (n : Nat) where
  column : Fin n
  replaced : Table Fraction n n
  determinant : Fraction
  value : Fraction

def CramerStep.lines (setup : Setup) (s : CramerStep n) : List String :=
  let i := toString (s.column.val + 1)
  ("Step " ++ toString (s.column.val + 2) ++ ": Matrix A" ++ i ++ " (replace column " ++ i ++
      " with constants)") ::
    s.replaced.lines ++
    ["det(A" ++ i ++ ") = " ++ s.determinant.text ++ " ≈ " ++ setup.number s.determinant.toFloat,
      "x" ++ i ++ " = det(A" ++ i ++ ")/det(A) = " ++ s.value.text ++ " ≈ " ++
        setup.number s.value.toFloat,
      ""]

def cramerStep (s : System Fraction n) (det : Fraction) (column : Fin n) :
    Except Error (CramerStep n) := do
  let replaced := replaceColumn s.coefficients column s.constants
  let replacedDet := determinant replaced
  let value ← (replacedDet.divide det).mapError .fraction
  return { column, replaced, determinant := replacedDet, value }

def cramerSteps (s : System Fraction n) (det : Fraction) :
    List (Fin n) → Trail (CramerStep n) Error (List Fraction)
  | [] => pure []
  | column :: columns => do
    let step ← .ofExcept (cramerStep s det column)
    .write [step]
    return step.value :: (← cramerSteps s det columns)

/-- Whether a determinant counts as zero: its float lies below the tolerance. -/
def isSingular (setup : Setup) (det : Fraction) : Bool :=
  det.abs.toFloat < setup.tolerance

def cramerTrail (setup : Setup) (s : System Float n) :
    Trail String Error (List Fraction) := do
  let exact ← .ofExcept s.exact
  .write ("Original Coefficient Matrix:" :: exact.coefficients.lines ++ [""])
  .write ("Constant Terms Vector:" ::
    exact.constants.toList.mapIdx (fun i value =>
      "b[" ++ toString (i + 1) ++ "] = " ++ value.text) ++ [""])
  let det := determinant exact.coefficients
  .write [
    "Step 1: Calculate determinant of A",
    "det(A) = " ++ det.text ++ " ≈ " ++ setup.number det.toFloat,
    ""]
  if isSingular setup det then .fail (.singular det)
  else (cramerSteps exact det (List.finRange n)).expand (CramerStep.lines setup)

def cramerAnswers (setup : Setup) (values : List Fraction) : List String :=
  values.mapIdx fun i value =>
    "x" ++ toString (i + 1) ++ " = " ++ value.text ++ " ≈ " ++ setup.number value.toFloat

def cramer (title : String) (setup : Setup) (s : System Float n) : Report Fraction :=
  .ofTrail title (cramerTrail setup s) (cramerAnswers setup)

end Stepwise.Linear
