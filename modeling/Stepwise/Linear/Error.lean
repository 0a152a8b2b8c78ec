import Stepwise.Fraction
import Stepwise.Linear.Settings

/-!
# What can stop the solution of a linear system
-/

namespace Stepwise.Linear

/-- Why a system has no answer. Rows, columns and iterations are counted from one. -/
inductive Error where
  | invalidSetting (cause : SettingError)
  | empty
  | notSquare (row length expected : Nat)
  | tooFewEquations (required actual : Nat)
  | constantsLength (expected actual : Nat)
  | nonFiniteCoefficient (row column : Nat) (value : Float)
  | nonFiniteConstant (row : Nat) (value : Float)
  | singular (determinant : Fraction)
  | zeroPivot (column : Nat)
  | zeroDiagonal (row : Nat)
  | diverged (iteration : Nat)
  | fraction (cause : Fraction.Error)

def Error.message : Error → String
  | .invalidSetting cause => "invalid config: " ++ cause.message
  | .empty => "coefficient matrix is empty"
  | .notSquare row length expected =>
    "coefficient matrix must be square: row " ++ toString row ++ " has " ++ toString length ++
      " entries, expected " ++ toString expected
  | .tooFewEquations required actual =>
    "at least " ++ toString required ++ " equations are required, got " ++ toString actual
  | .constantsLength expected actual =>
    "constant vector has " ++ toString actual ++ " entries, expected " ++ toString expected
  | .nonFiniteCoefficient row column value =>
    "coefficient a[" ++ toString row ++ "][" ++ toString column ++ "] is not finite: " ++
      Decimal.plainText value
  | .nonFiniteConstant row value =>
    "constant b[" ++ toString row ++ "] is not finite: " ++ Decimal.plainText value
  | .singular determinant =>
    "determinant of A is 0 (" ++ determinant.text ++ "), no unique solution exists"
  | .zeroPivot column =>
    "zero pivot in column " ++ toString column ++ " after pivoting, no unique solution exists"
  | .zeroDiagonal row => "zero diagonal entry in row " ++ toString row
  | .diverged iteration =>
    "iterates are no longer finite at iteration " ++ toString iteration
  | .fraction cause => cause.message

end Stepwise.Linear
