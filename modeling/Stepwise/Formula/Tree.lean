/-!
# Formulas as trees

What a formula says before its names are looked up.
-/

namespace Stepwise.Formula

inductive Operator where
  | add
  | subtract
  | multiply
  | divide
  | power
deriving DecidableEq, Repr

inductive Tree where
  | number (value : Float)
  | name (word : String)
  | negate (operand : Tree)
  | binary (operator : Operator) (left right : Tree)
  | call (function : String) (argument : Tree)

end Stepwise.Formula
