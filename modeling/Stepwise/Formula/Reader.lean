import Stepwise.Formula.Error
import Stepwise.Formula.Token
import Stepwise.Formula.Tree
import Stepwise.Text.Blank

/-!
# Reading a formula

A formula is a sum of products; the factors of a product are joined by `*`, by `/`, or by standing
side by side (`2x`, `4cos(x)`, `3(x + 1)`).

```
sum      =  product  { ("+" | "-") product }
product  =  signed  { ("*" | "/") signed  |  power }
signed   =  "-" signed  |  "+" signed  |  power
power    =  atom  [ "^" signed ]
atom     =  literal  |  name "(" sum ")"  |  name  |  "(" sum ")"
```

Blanks may stand before every part, but neither between a function's name and its parenthesis nor
before a factor without an operator. A sign binds less tightly than a power, and powers group to the
right.

Readers fail where no operand can start. A sum ends before an operator whose product fails, so that
the operator is left over; a product, a power and a parenthesis fail as their parts do.
-/

namespace Stepwise.Formula

abbrev Reading (text : List Char) := Except (List Char) (Consumed Tree text)

/-- A tree that is extended as far as a text goes on; the text may not go on at all. -/
structure Extended (text : List Char) where
  tree : Tree
  rest : List Char
  notLonger : rest.length ≤ text.length

def sumOperator : Char → Option Operator
  | '+' => some .add
  | '-' => some .subtract
  | _ => none

def productOperator : Char → Option Operator
  | '*' => some .multiply
  | '/' => some .divide
  | _ => none

/-- The signs before an operand, with what they do to it. -/
def sign : Char → Option (Tree → Tree)
  | '-' => some .negate
  | '+' => some id
  | _ => none

def caret : Char → Option Unit
  | '^' => some ()
  | _ => none

def closing : Char → Option Unit
  | ')' => some ()
  | _ => none

/-- Whether a factor without an operator follows at once: a name or a parenthesis, not a number. -/
def startsFactor : List Char → Bool
  | [] => false
  | c :: _ => isWordStart c || c == '(' || c == 'π'

mutual

def readSum (text : List Char) : Reading text :=
  match readProduct text with
  | .error rest => .error rest
  | .ok first =>
    let sum := extendSum first.value first.rest
    .ok ⟨sum.tree, sum.rest, Nat.lt_of_le_of_lt sum.notLonger first.shorter⟩
termination_by (text.length, 6)
decreasing_by
  · exact Prod.Lex.right _ (by decide)
  · exact Prod.Lex.left _ _ first.shorter

def extendSum (sum : Tree) (text : List Char) : Extended text :=
  match symbol? sumOperator text with
  | none => ⟨sum, text, Nat.le_refl _⟩
  | some operator =>
    match readProduct operator.rest with
    | .error _ => ⟨sum, text, Nat.le_refl _⟩
    | .ok next =>
      let longer := extendSum (.binary operator.value sum next.value) next.rest
      ⟨longer.tree, longer.rest, Nat.le_of_lt
        (Nat.lt_of_le_of_lt longer.notLonger (Nat.lt_trans next.shorter operator.shorter))⟩
termination_by (text.length, 6)
decreasing_by
  · exact Prod.Lex.left _ _ operator.shorter
  · exact Prod.Lex.left _ _ (Nat.lt_trans next.shorter operator.shorter)

def readProduct (text : List Char) : Reading text :=
  match readSigned text with
  | .error rest => .error rest
  | .ok first =>
    match extendProduct first.value first.rest with
    | .error rest => .error rest
    | .ok product =>
      .ok ⟨product.tree, product.rest, Nat.lt_of_le_of_lt product.notLonger first.shorter⟩
termination_by (text.length, 5)
decreasing_by
  · exact Prod.Lex.right _ (by decide)
  · exact Prod.Lex.left _ _ first.shorter

def extendProduct (product : Tree) (text : List Char) :
    Except (List Char) (Extended text) :=
  match symbol? productOperator text with
  | some operator =>
    match readSigned operator.rest with
    | .error rest => .error rest
    | .ok next =>
      match extendProduct (.binary operator.value product next.value) next.rest with
      | .error rest => .error rest
      | .ok longer =>
        .ok ⟨longer.tree, longer.rest, Nat.le_of_lt
          (Nat.lt_of_le_of_lt longer.notLonger (Nat.lt_trans next.shorter operator.shorter))⟩
  | none =>
    if startsFactor text then
      match readPower text with
      | .error rest => .error rest
      | .ok next =>
        match extendProduct (.binary .multiply product next.value) next.rest with
        | .error rest => .error rest
        | .ok longer =>
          .ok ⟨longer.tree, longer.rest, Nat.le_of_lt
            (Nat.lt_of_le_of_lt longer.notLonger next.shorter)⟩
    else .ok ⟨product, text, Nat.le_refl _⟩
termination_by (text.length, 5)
decreasing_by
  · exact Prod.Lex.left _ _ operator.shorter
  · exact Prod.Lex.left _ _ (Nat.lt_trans next.shorter operator.shorter)
  · exact Prod.Lex.right _ (by decide)
  · exact Prod.Lex.left _ _ next.shorter

/-- Reads a factor with its signs. A sign without an operand is itself what fails. -/
def readSigned (text : List Char) : Reading text :=
  match symbol? sign text with
  | some mark =>
    match readSigned mark.rest with
    | .error _ => .error (skipBlanks text)
    | .ok operand =>
      .ok ⟨mark.value operand.value, operand.rest, Nat.lt_trans operand.shorter mark.shorter⟩
  | none => readPower text
termination_by (text.length, 4)
decreasing_by
  · exact Prod.Lex.left _ _ mark.shorter
  · exact Prod.Lex.right _ (by decide)

def readPower (text : List Char) : Reading text :=
  match readAtom text with
  | .error rest => .error rest
  | .ok base =>
    match symbol? caret base.rest with
    | none => .ok base
    | some mark =>
      match readSigned mark.rest with
      | .error rest => .error rest
      | .ok exponent =>
        .ok ⟨.binary .power base.value exponent.value, exponent.rest,
          Nat.lt_trans exponent.shorter (Nat.lt_trans mark.shorter base.shorter)⟩
termination_by (text.length, 3)
decreasing_by
  · exact Prod.Lex.right _ (by decide)
  · exact Prod.Lex.left _ _ (Nat.lt_trans mark.shorter base.shorter)

/-- Reads a literal, a call, a name or a parenthesis, after any blanks. A name whose argument fails
is taken for itself. -/
def readAtom (text : List Char) : Reading text :=
  match literal? (skipBlanks text) with
  | some literal =>
    .ok (Consumed.widen ⟨.number (literalValue literal.value), literal.rest, literal.shorter⟩
      (length_skipBlanks_le text))
  | none =>
    match name? (skipBlanks text) with
    | some name =>
      match readGroup name.rest with
      | .error _ =>
        .ok (Consumed.widen ⟨.name name.value, name.rest, name.shorter⟩ (length_skipBlanks_le text))
      | .ok argument =>
        .ok (Consumed.widen
          ⟨.call name.value argument.value, argument.rest,
            Nat.lt_trans argument.shorter name.shorter⟩
          (length_skipBlanks_le text))
    | none =>
      match readGroup (skipBlanks text) with
      | .error rest => .error rest
      | .ok inner => .ok (inner.widen (length_skipBlanks_le text))
termination_by (text.length, 2)
decreasing_by
  · exact Prod.Lex.left _ _ (Nat.lt_of_lt_of_le name.shorter (length_skipBlanks_le text))
  · rcases Nat.lt_or_eq_of_le (length_skipBlanks_le text) with shorter | same
    · exact Prod.Lex.left _ _ shorter
    · rw [same]
      exact Prod.Lex.right _ (by decide)

/-- Reads a sum between parentheses, the first of them at once. -/
def readGroup (text : List Char) : Reading text :=
  match text with
  | '(' :: inside =>
    match readSum inside with
    | .error rest => .error rest
    | .ok inner =>
      match symbol? closing inner.rest with
      | none => .error (skipBlanks inner.rest)
      | some mark =>
        .ok ⟨inner.value, mark.rest,
          Nat.lt_succ_of_lt (Nat.lt_trans mark.shorter inner.shorter)⟩
  | text => .error text
termination_by (text.length, 1)
decreasing_by exact Prod.Lex.left _ _ (Nat.lt_succ_self _)

end

/-- Reads a whole text as a formula. White space may follow it. -/
def Tree.read (source : String) : Except Error Tree :=
  match readSum source.toList with
  | .error rest => .error (.malformed (String.ofList rest))
  | .ok formula =>
    match Text.trim formula.rest with
    | [] => .ok formula.value
    | left => .error (.leftover (String.ofList left))

end Stepwise.Formula
