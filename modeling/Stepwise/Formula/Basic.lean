import Stepwise.Formula.Reader
import Stepwise.Formula.Term

/-!
# Formulas

- `Formula`: a formula in one variable, with the text that it was read from
- `Formula.parse`, `Formula.eval`
- `Evaluator`: whatever gives texts a value; `Formula.evaluator` is the one for formulas
-/

namespace Stepwise

structure Formula where
  source : String
  variableName : String
  term : Formula.Term

namespace Formula

def parse (source variableName : String) : Except Error Formula := do
  let tree ← Tree.read source
  let term ← tree.resolve variableName
  return ⟨source, variableName, term⟩

def eval (formula : Formula) (x : Float) : Except Error Float := formula.term.eval x

end Formula

/-- Gives the text of a formula a value: the text, the name of its variable, and the point. The
errors are the evaluator's own. -/
abbrev Evaluator (ε : Type) := String → String → Float → Except ε Float

def Formula.evaluator : Evaluator Formula.Error := fun source variableName x => do
  (← Formula.parse source variableName).eval x

end Stepwise
