/-!
# Words and number literals

The smallest parts of a formula, as its reader and the substitution of its variable both see them.

- `Formula.isIdentifier`: the names a variable may have
- `Formula.isWordStart`, `Formula.isWordPart`: the characters of a word
- `Formula.splitExponent`: the exponent of a number literal, told apart from a word that starts with
  the letter e
-/

namespace Stepwise.Formula

/-- A letter of a word; letters are those of ASCII. -/
def isWordStart (c : Char) : Bool := c.isAlpha || c == '_'

def isWordPart (c : Char) : Bool := c.isAlphanum || c == '_'

def isIdentifier (name : String) : Bool :=
  match name.toList with
  | [] => false
  | first :: rest => isWordStart first && rest.all isWordPart

def isExponentMark (c : Char) : Bool := c == 'e' || c == 'E'

def splitSign : List Char → List Char × List Char
  | c :: rest => if c == '+' || c == '-' then ([c], rest) else ([], c :: rest)
  | [] => ([], [])

/-- Splits off the exponent of a number literal: its mark, perhaps a sign, and digits. Where no
digit follows, there is no exponent. -/
def splitExponent : List Char → List Char × List Char
  | [] => ([], [])
  | mark :: rest =>
    let (sign, digits) := splitSign rest
    if isExponentMark mark && !(digits.takeWhile Char.isDigit).isEmpty then
      (mark :: sign ++ digits.takeWhile Char.isDigit, digits.dropWhile Char.isDigit)
    else ([], mark :: rest)

theorem splitSign_append (cs : List Char) : (splitSign cs).1 ++ (splitSign cs).2 = cs := by
  cases cs with
  | nil => rfl
  | cons c rest => simp only [splitSign]; split <;> rfl

theorem splitExponent_append (cs : List Char) :
    (splitExponent cs).1 ++ (splitExponent cs).2 = cs := by
  cases cs with
  | nil => rfl
  | cons mark rest =>
    simp only [splitExponent]
    split
    · simp only [List.cons_append, List.append_assoc, List.takeWhile_append_dropWhile,
        splitSign_append]
    · rfl

theorem length_splitExponent_le (cs : List Char) :
    (splitExponent cs).2.length ≤ cs.length := by
  have whole := congrArg List.length (splitExponent_append cs)
  rw [List.length_append] at whole
  omega

end Stepwise.Formula
