import Stepwise.Formula.Basic
import Stepwise.Proofs.Binary64.Sign

/-!
# Division by zero

A formula has no value where one of its divisors is zero, however deep inside the formula. Everywhere
else it has the value that its operations make of the point, from the leaves up.

- `Term.subterms`: the parts of a term on every level
- `Term.value`: the operations without a test of the divisors
- `Term.DividesByZero`: some divisor is zero
- `Term.eval_cases`: there are no other cases
-/

namespace Stepwise.Formula

/-- The result of an operation on floats, where divisors may be zero. -/
def Operator.compute : Operator → Float → Float → Float
  | .add, x, y => x + y
  | .subtract, x, y => x - y
  | .multiply, x, y => x * y
  | .divide, x, y => x / y
  | .power, x, y => x.pow y

theorem Operator.apply_eq_compute {operator : Operator} {x y : Float}
    (regular : operator = .divide → (y == 0.0) = false) :
    operator.apply x y = .ok (operator.compute x y) := by
  cases operator with
  | divide => rw [apply, regular rfl, if_neg Bool.false_ne_true, compute]
  | add | subtract | multiply | power => rfl

theorem Operator.apply_divide_zero (x : Float) {y : Float} (zero : (y == 0.0) = true) :
    Operator.divide.apply x y = .error .divisionByZero := by
  rw [apply, if_pos zero]

namespace Term

/-- A term and the terms in it. -/
def subterms : Term → List Term
  | .number value => [.number value]
  | .variable => [.variable]
  | .negate operand => .negate operand :: operand.subterms
  | .binary operator left right =>
    .binary operator left right :: (left.subterms ++ right.subterms)
  | .call function argument => .call function argument :: argument.subterms

/-- The float that a term comes to at a point if no divisor is tested. -/
def value (x : Float) : Term → Float
  | .number value => value
  | .variable => x
  | .negate operand => -operand.value x
  | .binary operator left right => operator.compute (left.value x) (right.value x)
  | .call function argument => function.apply (argument.value x)

/-- Somewhere in a term is a divisor that has a value at a point, and that is one of the zeros. -/
def DividesByZero (x : Float) (term : Term) : Prop :=
  ∃ left right y, .binary .divide left right ∈ term.subterms ∧ right.eval x = .ok y ∧
    (y = 0.0 ∨ y = -0.0)

variable {x : Float}

theorem not_dividesByZero_number (value : Float) : ¬ (number value).DividesByZero x := by
  simp [DividesByZero, subterms]

theorem not_dividesByZero_variable : ¬ variable.DividesByZero x := by
  simp [DividesByZero, subterms]

theorem dividesByZero_negate {operand : Term} :
    (negate operand).DividesByZero x ↔ operand.DividesByZero x := by
  simp [DividesByZero, subterms]

theorem dividesByZero_call {function : Function} {argument : Term} :
    (call function argument).DividesByZero x ↔ argument.DividesByZero x := by
  simp [DividesByZero, subterms]

theorem dividesByZero_binary {operator : Operator} {left right : Term} :
    (binary operator left right).DividesByZero x ↔
      (operator = .divide ∧ ∃ y, right.eval x = .ok y ∧ (y == 0.0) = true) ∨
        left.DividesByZero x ∨ right.DividesByZero x := by
  simp only [DividesByZero, subterms, List.mem_cons, List.mem_append, Binary64.beq_zero_iff]
  constructor
  · rintro ⟨l, r, y, here | inLeft | inRight, evaluated, zero⟩
    · cases here
      exact .inl ⟨rfl, y, evaluated, zero⟩
    · exact .inr (.inl ⟨l, r, y, inLeft, evaluated, zero⟩)
    · exact .inr (.inr ⟨l, r, y, inRight, evaluated, zero⟩)
  · rintro (⟨rfl, y, evaluated, zero⟩ | ⟨l, r, y, inLeft, rest⟩ | ⟨l, r, y, inRight, rest⟩)
    · exact ⟨left, right, y, .inl rfl, evaluated, zero⟩
    · exact ⟨l, r, y, .inr (.inl inLeft), rest⟩
    · exact ⟨l, r, y, .inr (.inr inRight), rest⟩

/-- A term fails where it divides by zero, and has its value everywhere else. -/
theorem eval_cases (term : Term) :
    term.DividesByZero x ∧ term.eval x = .error .divisionByZero ∨
      ¬ term.DividesByZero x ∧ term.eval x = .ok (term.value x) := by
  induction term with
  | number z => exact .inr ⟨not_dividesByZero_number z, rfl⟩
  | «variable» => exact .inr ⟨not_dividesByZero_variable, rfl⟩
  | negate operand ih =>
    rw [dividesByZero_negate, eval]
    refine ih.imp (fun ⟨divides, failed⟩ => ⟨divides, ?_⟩) fun ⟨regular, known⟩ => ⟨regular, ?_⟩
    · rw [failed]
      rfl
    · rw [known]
      rfl
  | call function argument ih =>
    rw [dividesByZero_call, eval]
    refine ih.imp (fun ⟨divides, failed⟩ => ⟨divides, ?_⟩) fun ⟨regular, known⟩ => ⟨regular, ?_⟩
    · rw [failed]
      rfl
    · rw [known]
      rfl
  | binary operator left right ih ih' =>
    rw [dividesByZero_binary, eval]
    -- The operands come first, so that a divisor is only looked at where both have a value.
    obtain ⟨divides, failed⟩ | ⟨regular, known⟩ := ih
    · rw [failed]
      exact .inl ⟨.inr (.inl divides), rfl⟩
    obtain ⟨divides, failed⟩ | ⟨regular', known'⟩ := ih'
    · rw [known, failed]
      exact .inl ⟨.inr (.inr divides), rfl⟩
    rw [known, known']
    by_cases zero : operator = .divide ∧ (right.value x == 0.0) = true
    · obtain ⟨rfl, zero⟩ := zero
      exact .inl ⟨.inl ⟨rfl, _, rfl, zero⟩, Operator.apply_divide_zero _ zero⟩
    · refine .inr ⟨?_, Operator.apply_eq_compute fun divide => ?_⟩
      · rintro (⟨rfl, y, same, isZero⟩ | divides | divides)
        · cases same
          exact zero ⟨rfl, isZero⟩
        · exact regular divides
        · exact regular' divides
      · exact Bool.eq_false_of_not_eq_true fun isZero => zero ⟨divide, isZero⟩

end Term

/-- A division by zero anywhere in a formula is the result of the whole formula, and nothing else
is. -/
theorem eval_eq_divisionByZero_iff (formula : Formula) (x : Float) :
    (formula.eval x = .error .divisionByZero ↔ formula.term.DividesByZero x) ∧
      (formula.eval x = .ok (formula.term.value x) ↔ ¬ formula.term.DividesByZero x) := by
  rw [Formula.eval]
  obtain ⟨divides, failed⟩ | ⟨regular, known⟩ := formula.term.eval_cases
  · rw [failed]
    exact ⟨⟨fun _ => divides, fun _ => rfl⟩, ⟨nofun, fun regular => absurd divides regular⟩⟩
  · rw [known]
    exact ⟨⟨nofun, fun divides => absurd divides regular⟩, ⟨fun _ => regular, fun _ => rfl⟩⟩

end Stepwise.Formula
