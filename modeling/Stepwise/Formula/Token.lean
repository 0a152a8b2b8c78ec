import Stepwise.Formula.Word

/-!
# Reading the parts of a formula

Each reader takes something off the front of a text, or nothing at all. What it took comes with the
rest of the text and the fact that the rest is shorter, so that readers can be repeated without
further ado.

- `Formula.skipBlanks`: the blanks that may stand before a part
- `Formula.literal?`: a number literal, `Formula.literalValue` its value
- `Formula.word?`: a name
- `Formula.symbol?`: a sign or operator with the blanks before it
-/

namespace Stepwise.Formula

structure Consumed (α : Type) (text : List Char) where
  value : α
  rest : List Char
  shorter : rest.length < text.length

def Consumed.widen {α : Type} {text wider : List Char} (c : Consumed α text)
    (le : text.length ≤ wider.length) : Consumed α wider :=
  { c with shorter := Nat.lt_of_lt_of_le c.shorter le }

/-! ## Blanks -/

/-- The characters that may stand between the parts of a formula. -/
def isBlank (c : Char) : Bool := c == ' ' || c == '\t' || c == '\r' || c == '\n'

def skipBlanks (text : List Char) : List Char := text.dropWhile isBlank

theorem length_skipBlanks_le (text : List Char) : (skipBlanks text).length ≤ text.length :=
  (List.dropWhile_sublist _).length_le

/-! ## Number literals -/

/-- Splits off the digits of a number literal, perhaps with a point before, between or after them. A
point alone is none. -/
def splitMantissa (text : List Char) : List Char × List Char :=
  let whole := text.takeWhile Char.isDigit
  match text.dropWhile Char.isDigit with
  | '.' :: rest =>
    let part := rest.takeWhile Char.isDigit
    if whole.isEmpty && part.isEmpty then ([], text)
    else (whole ++ '.' :: part, rest.dropWhile Char.isDigit)
  | rest => (whole, rest)

theorem splitMantissa_append (text : List Char) :
    (splitMantissa text).1 ++ (splitMantissa text).2 = text := by
  have parts := List.takeWhile_append_dropWhile (p := Char.isDigit) (l := text)
  simp only [splitMantissa]
  split
  · rename_i rest point
    split
    · rfl
    · rw [point] at parts
      rw [List.append_assoc, List.cons_append, List.takeWhile_append_dropWhile]
      exact parts
  · exact parts

def digitsValue (digits : List Char) : Nat := Nat.ofDigitChars 10 digits 0

def exponentValue (text : List Char) : Int :=
  match splitSign (text.drop 1) with
  | (['-'], digits) => -digitsValue digits
  | (_, digits) => digitsValue digits

/-- The float nearest to a number literal: its digits as one whole number, scaled by the exponent
less the count of the digits after the point. -/
def literalValue (text : List Char) : Float :=
  let mantissa := text.takeWhile fun c => !isExponentMark c
  let whole := mantissa.takeWhile Char.isDigit
  let part := (mantissa.dropWhile Char.isDigit).drop 1
  let exponent := exponentValue (text.dropWhile fun c => !isExponentMark c) - part.length
  Float.ofScientific (digitsValue (whole ++ part)) (exponent < 0) exponent.natAbs

def literal? (text : List Char) : Option (Consumed (List Char) text) :=
  if nonempty : (splitMantissa text).1 = [] then none
  else
    some {
      value := (splitMantissa text).1 ++ (splitExponent (splitMantissa text).2).1
      rest := (splitExponent (splitMantissa text).2).2
      shorter := by
        have parts := congrArg List.length (splitMantissa_append text)
        have positive := List.length_pos_iff.2 nonempty
        have le := length_splitExponent_le (splitMantissa text).2
        rw [List.length_append] at parts
        omega }

/-! ## Names -/

/-- Splits off a name: a word, or the Greek letter that names a constant. -/
def splitName : List Char → List Char × List Char
  | [] => ([], [])
  | c :: rest =>
    if c == 'π' then ([c], rest)
    else if isWordStart c then (c :: rest.takeWhile isWordPart, rest.dropWhile isWordPart)
    else ([], c :: rest)

theorem splitName_append (text : List Char) : (splitName text).1 ++ (splitName text).2 = text := by
  cases text with
  | nil => rfl
  | cons c rest =>
    simp only [splitName]
    split
    · rfl
    · split
      · simp [List.takeWhile_append_dropWhile]
      · rfl

def name? (text : List Char) : Option (Consumed String text) :=
  if nonempty : (splitName text).1 = [] then none
  else
    some {
      value := String.ofList (splitName text).1
      rest := (splitName text).2
      shorter := by
        have parts := congrArg List.length (splitName_append text)
        have positive := List.length_pos_iff.2 nonempty
        rw [List.length_append] at parts
        omega }

/-! ## Signs and operators -/

/-- Reads one character that has a meaning in `table`, after any blanks. -/
def symbol? {α : Type} (table : Char → Option α) (text : List Char) : Option (Consumed α text) :=
  match start : skipBlanks text with
  | [] => none
  | c :: rest =>
    (table c).map fun value =>
      { value, rest, shorter := by
          have le := length_skipBlanks_le text
          rw [start, List.length_cons] at le
          omega }

end Stepwise.Formula
