import Stepwise.Formula.Error
import Stepwise.Formula.Function
import Stepwise.Formula.Tree

/-!
# Terms

- `Formula.Term`: a formula whose names have a meaning
- `Formula.Tree.resolve`: looks the names up, from left to right
- `Formula.Term.eval`: the value at a point
-/

namespace Stepwise.Formula

/-- A formula in one variable, its functions and constants known. -/
inductive Term where
  | number (value : Float)
  | variable
  | negate (operand : Term)
  | binary (operator : Operator) (left right : Term)
  | call (function : Function) (argument : Term)

/-- Looks the names of a formula up. The variable comes before the constants, so that a formula in
`e` takes `e` for its variable. A function is looked up before its argument. -/
def Tree.resolve (variableName : String) : Tree → Except Error Term
  | .number value => .ok (.number value)
  | .name word =>
    if word = variableName then .ok .variable
    else
      match constant? word with
      | some value => .ok (.number value)
      | none => .error (.unknownVariable word)
  | .negate operand => do
    return .negate (← operand.resolve variableName)
  | .binary operator left right => do
    let left ← left.resolve variableName
    let right ← right.resolve variableName
    return .binary operator left right
  | .call word argument =>
    match Function.ofName? word with
    | none => .error (.unknownFunction word)
    | some function => do
      return .call function (← argument.resolve variableName)

/-- The result of an operation. A divisor that is zero, of either sign, is an error. -/
def Operator.apply (operator : Operator) (x y : Float) : Except Error Float :=
  match operator with
  | .add => .ok (x + y)
  | .subtract => .ok (x - y)
  | .multiply => .ok (x * y)
  | .divide => if y == 0.0 then .error .divisionByZero else .ok (x / y)
  | .power => .ok (x.pow y)

def Term.eval (x : Float) : Term → Except Error Float
  | .number value => .ok value
  | .variable => .ok x
  | .negate operand => do
    return -(← operand.eval x)
  | .binary operator left right => do
    let left ← left.eval x
    let right ← right.eval x
    operator.apply left right
  | .call function argument => do
    return function.apply (← argument.eval x)

end Stepwise.Formula
