import Stepwise.Formula.Word

/-!
# Substitution in the text of a formula

- `Formula.Lexeme`: a word, a number literal, or any other character
- `Formula.lexemes`: cuts a text into lexemes
- `Formula.substitute`: writes a value in place of each word that is the variable
-/

namespace Stepwise.Formula

inductive Lexeme where
  | word (text : List Char)
  | numeral (text : List Char)
  | other (c : Char)
deriving DecidableEq, Repr

def Lexeme.text : Lexeme → List Char
  | .word text => text
  | .numeral text => text
  | .other c => [c]

/-- Whether a character belongs to the digits of a number literal. Several points do no harm. -/
def isNumeralPart (c : Char) : Bool := c.isDigit || c == '.'

/-- Cuts a text into words, number literals with their exponents, and single characters. Words and
literals reach as far as they can. -/
def lexemes : List Char → List Lexeme
  | [] => []
  | c :: rest =>
    if isWordStart c then
      .word (c :: rest.takeWhile isWordPart) :: lexemes (rest.dropWhile isWordPart)
    else if isNumeralPart c then
      let exponent := splitExponent (rest.dropWhile isNumeralPart)
      .numeral (c :: rest.takeWhile isNumeralPart ++ exponent.1) :: lexemes exponent.2
    else .other c :: lexemes rest
termination_by text => text.length
decreasing_by
  · have le := (List.dropWhile_sublist isWordPart (l := rest)).length_le
    simp only [List.length_cons]
    omega
  · have le := (List.dropWhile_sublist isNumeralPart (l := rest)).length_le
    have le' := length_splitExponent_le (rest.dropWhile isNumeralPart)
    simp only [List.length_cons]
    omega
  · simp

theorem flatMap_text_lexemes (text : List Char) : (lexemes text).flatMap Lexeme.text = text := by
  fun_induction lexemes text with
  | case1 => rfl
  | case2 c rest _ ih =>
    rw [List.flatMap_cons, ih]
    simp [Lexeme.text, List.takeWhile_append_dropWhile]
  | case3 c rest _ _ exponent ih =>
    rw [List.flatMap_cons, ih]
    simp only [Lexeme.text, List.cons_append, List.append_assoc]
    rw [splitExponent_append, List.takeWhile_append_dropWhile]
  | case4 c rest _ _ ih =>
    rw [List.flatMap_cons, ih]
    rfl

/-- Whether a character ends an operand, so that a value written after it would read as part of
it. -/
def endsOperand (c : Char) : Bool := c.isAlphanum || c == '.' || c == ')'

/-- A value as it is written after a character: in parentheses if it is negative or follows an
operand. -/
def insertion (value : List Char) (previous : Option Char) : List Char :=
  if value.head? = some '-' || previous.any endsOperand then '(' :: value ++ [')'] else value

def replacement (variableName value : List Char) (previous : Option Char) (piece : Lexeme) :
    List Char :=
  match piece with
  | .word text => if text = variableName then insertion value previous else text
  | piece => piece.text

def substitutePieces (variableName value : List Char) :
    Option Char → List Lexeme → List Char
  | _, [] => []
  | previous, piece :: pieces =>
    let written := replacement variableName value previous piece
    written ++ substitutePieces variableName value (written.getLast?.or previous) pieces

/-- Writes `value` in place of every word of a formula that is its variable. A variable that is part
of a longer word, or of the exponent of a number, is left alone. -/
def substitute (formula variableName value : String) : String :=
  String.ofList
    (substitutePieces variableName.toList value.toList none (lexemes formula.toList))

end Stepwise.Formula
