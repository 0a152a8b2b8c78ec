import Stepwise.Root.Settings

/-!
# What can stop a root search
-/

namespace Stepwise.Root

structure Sample where
  point : Float
  value : Float

/-- Why a root search has no answer; `ε` are the errors of the evaluator. -/
inductive Error (ε : Type) where
  | invalidSetting (cause : SettingError)
  /-- The values at the ends of a bracket do not have opposite signs. -/
  | noSignChange (a b : Sample)
  /-- The chord through two points is level. -/
  | equalValues (earlier later : Sample)
  /-- The tangent at a point is level, or nearly so. -/
  | zeroDerivative (point derivative : Float)
  | evaluation (point : Float) (cause : ε)
  | nonFinite (sample : Sample)

def Error.message {ε : Type} [ToString ε] : Error ε → String
  | .invalidSetting cause => "invalid config: " ++ cause.message
  | .noSignChange a b =>
    "f(a) and f(b) must have opposite signs, got f(" ++ Decimal.plainText a.point ++ ") = " ++
      Decimal.plainText a.value ++ " and f(" ++ Decimal.plainText b.point ++ ") = " ++
      Decimal.plainText b.value
  | .equalValues earlier later =>
    "f(x0) and f(x1) are equal (" ++ Decimal.plainText later.value ++ ") at x0 = " ++
      Decimal.plainText earlier.point ++ ", x1 = " ++ Decimal.plainText later.point ++
      ", division by zero"
  | .zeroDerivative point derivative =>
    "derivative too small (near zero) at x = " ++ Decimal.plainText point ++ ": f'(x) = " ++
      Decimal.plainText derivative
  | .evaluation point cause =>
    "error evaluating function at " ++ Decimal.plainText point ++ ": " ++ toString cause
  | .nonFinite sample =>
    "function value is not finite at x = " ++ Decimal.plainText sample.point ++ ": " ++
      Decimal.plainText sample.value

end Stepwise.Root
