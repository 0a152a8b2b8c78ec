import Stepwise.Text.Quoted

/-!
# What can be wrong with a formula
-/

namespace Stepwise.Formula

inductive Error where
  /-- No operand starts here, or a closing parenthesis is missing. -/
  | malformed (rest : String)
  /-- The formula ends before the text does. -/
  | leftover (rest : String)
  /-- A name that is neither the variable nor a constant. -/
  | unknownVariable (name : String)
  /-- A name before a parenthesised argument that is no function. -/
  | unknownFunction (name : String)
  /-- A divisor is zero at this point. -/
  | divisionByZero
deriving DecidableEq, Repr

def Error.message : Error → String
  | .malformed rest =>
    "invalid syntax: Parsing Error: Error \x7b input: " ++
      String.ofList (Text.quoted rest.toList) ++ ", code: Char \x7d"
  | .leftover rest => "unexpected input: " ++ rest
  | .unknownVariable name => "unknown variable: " ++ name
  | .unknownFunction name => "unknown function: " ++ name
  | .divisionByZero => "division by zero"

instance : ToString Error := ⟨Error.message⟩

end Stepwise.Formula
