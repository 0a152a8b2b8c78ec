import Stepwise.Formula.Reader
import Stepwise.Proofs.Formula.Combinators
import Stepwise.Proofs.Formula.Parts

/-!
# The grammar in combinators

The grammar of formulas as it is put together from the functions of a library. Its parsers call each
other, so they are given by equations between parsers, whether these come to an end or not.

- `Combinators.sum`, `Combinators.signed`, `Combinators.nextFactor`: the rules
- `Grammar`: parsers that satisfy the rules
- `Combinators.Documented.number_of_some`, `Combinators.Documented.identifier_of_some` and their
  companions: symbols, literals and names are read as the readers do
-/

namespace Stepwise.Formula

/-! ## Parts -/

/-- The value of a number literal, if the whole text is one. -/
def float? (text : List Char) : Option Float :=
  (literal? text).bind fun literal =>
    if literal.rest = [] then some (literalValue literal.value) else none

namespace Combinators

variable (c : Combinators)

/-- A sign or an operator with the blanks before it. -/
def symbol (s : Char) : Parser Char := c.preceded c.multispace0 (c.char s)

def plusOrMinus : Parser Char := c.preceded c.multispace0 (c.alt [c.char '+', c.char '-'])

def timesOrOver : Parser Operator := c.preceded c.multispace0 (c.alt [
  c.map (c.char '*') fun _ => .multiply,
  c.map (c.char '/') fun _ => .divide])

def mantissa : Parser (List Char) := c.alt [
  c.recognize (c.pair c.digit1 (c.opt (c.pair (c.char '.') c.digit0))),
  c.recognize (c.pair (c.char '.') c.digit1)]

def exponent : Parser (Char × Option Char × List Char) :=
  c.tuple (c.oneOf ['e', 'E']) (c.opt (c.oneOf ['+', '-'])) c.digit1

def number : Parser Tree :=
  c.mapRes (c.recognize (c.pair c.mantissa (c.opt c.exponent))) fun text =>
    (float? text).map .number

def identifier : Parser (List Char) := c.alt [
  c.tag ['π'],
  c.recognize (c.pair (c.takeWhile1 isWordStart) (c.takeWhile isWordPart))]

def name : Parser Tree := c.map c.identifier fun word => .name (String.ofList word)

/-! ## Rules -/

variable (expr unary : Parser Tree) (factors : Tree → Parser Tree)

def group : Parser Tree := c.delimited (c.char '(') expr (c.symbol ')')

/-- The opening parenthesis must follow the name directly. -/
def call : Parser Tree := fun text =>
  (c.identifier text).andThen fun word rest => (c.group expr rest).andThen fun argument rest =>
    .success (.call (String.ofList word) argument) rest

def atom : Parser Tree :=
  c.preceded c.multispace0 (c.alt [c.number, c.call expr, c.name, c.group expr])

def power : Parser Tree := fun text =>
  (c.atom expr text).andThen fun base rest =>
    match c.symbol '^' rest with
    | .success _ behind => (unary behind).andThen fun exponent rest =>
      .success (.binary .power base exponent) rest
    | .failure _ => .success base rest
    | .endless => .endless

/-- A sign binds less tightly than a power. -/
def signed : Parser Tree := c.alt [
  c.map (c.preceded (c.symbol '-') unary) .negate,
  c.preceded (c.symbol '+') unary,
  c.power expr unary]

/-- One round of a loop over the factors of a product. -/
def nextFactor (product : Tree) : Parser Tree := fun text =>
  match c.timesOrOver text with
  | .success operator rest => (unary rest).andThen fun next rest =>
    factors (.binary operator product next) rest
  | .failure _ =>
    if startsFactor text then
      (c.power expr unary text).andThen fun next rest =>
        factors (.binary .multiply product next) rest
    else .success product text
  | .endless => .endless

def term : Parser Tree := fun text => (unary text).andThen factors

def sum : Parser Tree := fun text =>
  (term unary factors text).andThen fun first rest =>
    c.foldMany0 (c.pair c.plusOrMinus (term unary factors)) first
      (fun sum (sign, next) => .binary (if sign = '+' then .add else .subtract) sum next) rest

end Combinators

/-- Parsers that call each other as the rules say. -/
structure Grammar (c : Combinators) where
  expr : Parser Tree
  unary : Parser Tree
  factors : Tree → Parser Tree
  expr_eq : expr = c.sum unary factors
  unary_eq : unary = c.signed expr unary
  factors_eq (product : Tree) : factors product = c.nextFactor expr unary factors product

/-! ## Symbols -/

section

variable {c : Combinators} {text rest front : List Char} {α : Type}

theorem float?_of_literal? {literal : Consumed (List Char) text}
    (found : literal? text = some literal) :
    float? literal.value = some (literalValue literal.value) := by
  obtain ⟨m, e, isMantissa, isExponent, value, -⟩ := shape_of_literal? found
  have avoids : Avoids isNumeralPart [] := avoids_nil
  obtain ⟨shorter, read⟩ := literal?_append isMantissa isExponent avoids fun _ => rfl
  have whole : literal.value = m ++ e ++ [] := by rw [value, List.append_nil]
  rw [whole, float?, read]
  simp

theorem readChar_self (s : Char) (rest : List Char) (kind : Kind) :
    readChar (· == s) kind (s :: rest) = .success s rest := if_pos (beq_self_eq_true s)

theorem readChar_of_avoids {accepts : Char → Bool} {kind : Kind} (avoids : Avoids accepts text) :
    readChar accepts kind text = .failure ⟨text, kind⟩ := by
  cases text with
  | nil => rfl
  | cons s text => exact if_neg (by simp [avoids_cons.1 avoids])

namespace Combinators.Documented

variable (documented : c.Documented)

include documented

theorem preceded_multispace0 (p : Parser α) :
    c.preceded c.multispace0 p text = p (skipBlanks text) := by
  rw [documented.preceded, documented.multispace0]
  rfl

theorem symbol_eq (s : Char) :
    c.symbol s text = readChar (· == s) .char (skipBlanks text) := by
  rw [symbol, documented.preceded_multispace0, documented.char]

theorem symbol_of_some {table : Char → Option α} {s : Char}
    (only : ∀ d value, table d = some value → d = s) {mark : Consumed α text}
    (found : symbol? table text = some mark) : c.symbol s text = .success s mark.rest := by
  obtain ⟨d, start, meaning⟩ := exists_cons_of_symbol? found
  obtain rfl := only d _ meaning
  rw [documented.symbol_eq, start, readChar_self]

theorem symbol_of_none {table : Char → Option α} {s : Char} (absent : symbol? table text = none)
    (meaning : (table s).isSome = true) : c.symbol s text = .failure ⟨skipBlanks text, .char⟩ := by
  rw [documented.symbol_eq, readChar_of_avoids (avoids_of_symbol? absent meaning)]

theorem plusOrMinus_of_some {operator : Consumed Operator text}
    (found : symbol? sumOperator text = some operator) :
    ∃ sign, c.plusOrMinus text = .success sign operator.rest ∧
      (if sign = '+' then Operator.add else .subtract) = operator.value := by
  obtain ⟨s, start, meaning⟩ := exists_cons_of_symbol? found
  rw [plusOrMinus, documented.preceded_multispace0, documented.alt_cons, documented.alt_singleton,
    documented.char, documented.char, start]
  unfold sumOperator at meaning
  split at meaning
  · exact ⟨'+', rfl, Option.some.inj meaning⟩
  · exact ⟨'-', rfl, Option.some.inj meaning⟩
  · cases meaning

theorem plusOrMinus_of_none (absent : symbol? sumOperator text = none) :
    ∃ f, c.plusOrMinus text = .failure f := by
  rw [plusOrMinus, documented.preceded_multispace0, documented.alt_cons, documented.alt_singleton,
    documented.char, documented.char, readChar_of_avoids (avoids_of_symbol? (c := '+') absent rfl),
    readChar_of_avoids (avoids_of_symbol? (c := '-') absent rfl)]
  exact ⟨_, rfl⟩

theorem timesOrOver_of_some {operator : Consumed Operator text}
    (found : symbol? productOperator text = some operator) :
    c.timesOrOver text = .success operator.value operator.rest := by
  obtain ⟨s, start, meaning⟩ := exists_cons_of_symbol? found
  rw [timesOrOver, documented.preceded_multispace0, documented.alt_cons, documented.alt_singleton,
    documented.map, documented.map, documented.char, documented.char, start]
  unfold productOperator at meaning
  split at meaning
  · rw [← Option.some.inj meaning]
    rfl
  · rw [← Option.some.inj meaning]
    rfl
  · cases meaning

theorem timesOrOver_of_none (absent : symbol? productOperator text = none) :
    ∃ f, c.timesOrOver text = .failure f := by
  rw [timesOrOver, documented.preceded_multispace0, documented.alt_cons, documented.alt_singleton,
    documented.map, documented.map, documented.char, documented.char,
    readChar_of_avoids (avoids_of_symbol? (c := '*') absent rfl),
    readChar_of_avoids (avoids_of_symbol? (c := '/') absent rfl)]
  exact ⟨_, rfl⟩

/-! ## Literals and names -/

theorem recognize_of_success {p : Parser α} {a : α} (split : front ++ rest = text)
    (read : p text = .success a rest) : c.recognize p text = .success front rest := by
  rw [documented.recognize, read, Parsed.andThen_success, ← split]
  simp

theorem recognize_of_failure {p : Parser α} {f : Failure} (failed : p text = .failure f) :
    c.recognize p text = .failure f := by
  rw [documented.recognize, failed, Parsed.andThen_failure]

theorem opt_of_success {p : Parser α} {a : α} (read : p text = .success a rest) :
    c.opt p text = .success (some a) rest := by
  rw [documented.opt, read]
  rfl

theorem opt_of_failure {p : Parser α} {f : Failure} (failed : p text = .failure f) :
    c.opt p text = .success none text := by
  rw [documented.opt, failed]
  rfl

theorem recognize_digit1_of_eq_nil (empty : text.takeWhile Char.isDigit = []) (p : Parser α) :
    c.recognize (c.pair c.digit1 p) text = .failure ⟨text, .digit⟩ := by
  apply documented.recognize_of_failure
  rw [documented.pair, documented.digit1, readWhile1, if_pos empty, Parsed.andThen_failure]

theorem recognize_digit1_of_ne_nil {p : Parser α} {a : α}
    (nonempty : text.takeWhile Char.isDigit ≠ []) (split : front ++ rest = text)
    (read : p (text.dropWhile Char.isDigit) = .success a rest) :
    c.recognize (c.pair c.digit1 p) text = .success front rest := by
  refine documented.recognize_of_success (a := (text.takeWhile Char.isDigit, a)) split ?_
  rw [documented.pair, documented.digit1, readWhile1, if_neg nonempty, readWhile,
    Parsed.andThen_success, read, Parsed.andThen_success]

theorem mantissa_eq (text : List Char) :
    (splitMantissa text).1 = [] ∧ (∃ f, c.mantissa text = .failure f) ∨
      (splitMantissa text).1 ≠ [] ∧
        c.mantissa text = .success (splitMantissa text).1 (splitMantissa text).2 := by
  have whole := splitMantissa_append text
  rw [mantissa, documented.alt_cons, documented.alt_singleton]
  rcases avoids_or_exists_cons (· == '.') (text.dropWhile Char.isDigit) with
    avoids | ⟨d, rest, behind, point⟩
  · have noPoint : c.pair (c.char '.') c.digit0 (text.dropWhile Char.isDigit) =
        .failure ⟨text.dropWhile Char.isDigit, .char⟩ := by
      rw [documented.pair, documented.char, readChar_of_avoids avoids, Parsed.andThen_failure]
    rw [splitMantissa_of_avoids avoids] at whole ⊢
    by_cases digits : text.takeWhile Char.isDigit = []
    · rw [dropWhile_eq_self_of_takeWhile digits] at avoids
      refine .inl ⟨digits, ⟨text, .char⟩, ?_⟩
      rw [documented.recognize_digit1_of_eq_nil digits, Parsed.orElse_failure]
      apply documented.recognize_of_failure
      rw [documented.pair, documented.char, readChar_of_avoids avoids, Parsed.andThen_failure]
    · refine .inr ⟨digits, ?_⟩
      rw [documented.recognize_digit1_of_ne_nil digits whole (documented.opt_of_failure noPoint),
        Parsed.orElse_success]
  · obtain rfl := eq_of_beq point
    rw [splitMantissa_of_point behind] at whole ⊢
    by_cases digits : text.takeWhile Char.isDigit = []
    · rw [dropWhile_eq_self_of_takeWhile digits] at behind
      rw [documented.recognize_digit1_of_eq_nil digits, Parsed.orElse_failure]
      by_cases part : rest.takeWhile Char.isDigit = []
      · rw [if_pos ⟨digits, part⟩]
        refine .inl ⟨rfl, ⟨rest, .digit⟩, documented.recognize_of_failure ?_⟩
        rw [behind, documented.pair, documented.char, readChar_self, Parsed.andThen_success,
          documented.digit1, readWhile1, if_pos part, Parsed.andThen_failure]
      · rw [if_neg (by simp [part])] at whole ⊢
        refine .inr ⟨by simp, documented.recognize_of_success whole
          (a := ('.', rest.takeWhile Char.isDigit)) ?_⟩
        rw [behind, documented.pair, documented.char, readChar_self, Parsed.andThen_success,
          documented.digit1, readWhile1, if_neg part, readWhile, Parsed.andThen_success]
    · have part : c.pair (c.char '.') c.digit0 (text.dropWhile Char.isDigit) =
          .success ('.', rest.takeWhile Char.isDigit) (rest.dropWhile Char.isDigit) := by
        rw [behind, documented.pair, documented.char, readChar_self, documented.digit0]
        rfl
      rw [if_neg (by simp [digits])] at whole ⊢
      refine .inr ⟨by simp, ?_⟩
      rw [documented.recognize_digit1_of_ne_nil digits whole (documented.opt_of_success part),
        Parsed.orElse_success]

theorem opt_sign (text : List Char) :
    ∃ a, c.opt (c.oneOf ['+', '-']) text = .success a (splitSign text).2 := by
  rw [documented.opt, documented.oneOf]
  cases text with
  | nil => exact ⟨none, rfl⟩
  | cons s text =>
    have list : ['+', '-'].contains s = (s == '+' || s == '-') := by
      simp only [List.contains_cons, List.contains_nil, Bool.or_false]
    rw [readChar, list, splitSign]
    split
    · exact ⟨some s, rfl⟩
    · exact ⟨none, rfl⟩

theorem opt_exponent (text : List Char) :
    ∃ a, c.opt c.exponent text = .success a (splitExponent text).2 := by
  rw [documented.opt, exponent, documented.tuple, documented.oneOf]
  cases text with
  | nil => exact ⟨none, rfl⟩
  | cons mark text =>
    obtain ⟨sign, read⟩ := documented.opt_sign text
    have list : ['e', 'E'].contains mark = isExponentMark mark := by
      simp only [List.contains_cons, List.contains_nil, Bool.or_false, isExponentMark]
    rw [readChar, list]
    simp only [splitExponent]
    cases isExponentMark mark with
    | false => exact ⟨none, rfl⟩
    | true =>
      rw [if_pos rfl, Parsed.andThen_success, read, Parsed.andThen_success, documented.digit1,
        readWhile1, Bool.true_and]
      by_cases digits : (splitSign text).2.takeWhile Char.isDigit = []
      · rw [if_pos digits]
        exact ⟨none, by simp [digits]⟩
      · rw [if_neg digits]
        refine ⟨some (mark, sign, (splitSign text).2.takeWhile Char.isDigit), ?_⟩
        simp [digits, readWhile]

theorem number_of_some {literal : Consumed (List Char) text}
    (found : literal? text = some literal) :
    c.number text = .success (.number (literalValue literal.value)) literal.rest := by
  obtain ⟨m, e, -, -, value, parts, -⟩ := shape_of_literal? found
  obtain ⟨nonempty, rest⟩ : (splitMantissa text).1 ≠ [] ∧
      literal.rest = (splitExponent (splitMantissa text).2).2 := by
    rw [literal?] at found
    split at found
    next => cases found
    next nonempty =>
      cases found
      exact ⟨nonempty, rfl⟩
  obtain ⟨a, tail⟩ := documented.opt_exponent (splitMantissa text).2
  rw [← rest] at tail
  have recognized : c.recognize (c.pair c.mantissa (c.opt c.exponent)) text =
      .success literal.value literal.rest := by
    refine documented.recognize_of_success (a := ((splitMantissa text).1, a)) ?_ ?_
    · rw [value]
      exact parts.symm
    obtain ⟨empty, -⟩ | ⟨-, read⟩ := documented.mantissa_eq text
    · exact absurd empty nonempty
    · rw [documented.pair, read, Parsed.andThen_success, tail, Parsed.andThen_success]
  rw [number, documented.mapRes, recognized, Parsed.andThen_success, float?_of_literal? found]
  rfl

theorem number_of_none (absent : literal? text = none) : ∃ f, c.number text = .failure f := by
  have empty : (splitMantissa text).1 = [] := by
    rw [literal?] at absent
    split at absent
    next empty => exact empty
    next => cases absent
  obtain ⟨-, f, failed⟩ | ⟨nonempty, -⟩ := documented.mantissa_eq text
  · refine ⟨f, ?_⟩
    rw [number, documented.mapRes, documented.recognize, documented.pair, failed]
    rfl
  · exact absurd empty nonempty

theorem word_of_isWordStart {d : Char} (start : isWordStart d = true) (text : List Char) :
    c.recognize (c.pair (c.takeWhile1 isWordStart) (c.takeWhile isWordPart)) (d :: text) =
      .success (d :: text.takeWhile isWordPart) (text.dropWhile isWordPart) := by
  have nonempty : (d :: text).takeWhile isWordStart ≠ [] := by simp [start]
  refine documented.recognize_of_success (a := ((d :: text).takeWhile isWordStart,
    (text.dropWhile isWordStart).takeWhile isWordPart)) ?_ ?_
  · rw [List.cons_append, List.takeWhile_append_dropWhile]
  · rw [documented.pair, documented.takeWhile1, readWhile1, if_neg nonempty, readWhile,
      Parsed.andThen_success, documented.takeWhile, readWhile, Parsed.andThen_success,
      List.dropWhile_cons_of_pos start,
      dropWhile_dropWhile fun _ start => isWordPart_iff.2 (.inl start)]

theorem word_of_not_isWordStart (avoids : Avoids isWordStart text) :
    c.recognize (c.pair (c.takeWhile1 isWordStart) (c.takeWhile isWordPart)) text =
      .failure ⟨text, .takeWhile1⟩ := by
  have empty : text.takeWhile isWordStart = [] := by
    cases text with
    | nil => rfl
    | cons d text => exact List.takeWhile_cons_of_neg (by simp [avoids_cons.1 avoids])
  apply documented.recognize_of_failure
  rw [documented.pair, documented.takeWhile1, readWhile1, if_pos empty, Parsed.andThen_failure]

theorem identifier_eq (text : List Char) :
    ∃ f, c.identifier text = if (splitName text).1 = [] then .failure f
      else .success (splitName text).1 (splitName text).2 := by
  rw [identifier, documented.alt_cons, documented.alt_singleton, documented.tag]
  cases text with
  | nil => exact ⟨_, documented.word_of_not_isWordStart avoids_nil⟩
  | cons d text =>
    simp only [splitName, List.isPrefixOf_cons_cons, List.isPrefixOf_nil_left, Bool.and_true,
      BEq.comm (a := 'π')]
    split
    next pi =>
      obtain rfl := eq_of_beq pi
      exact ⟨⟨[], .tag⟩, rfl⟩
    next =>
      rw [Parsed.orElse_failure]
      cases start : isWordStart d with
      | true => exact ⟨⟨[], .tag⟩, documented.word_of_isWordStart start text⟩
      | false => exact ⟨_, documented.word_of_not_isWordStart (avoids_cons.2 start)⟩

theorem identifier_of_some {name : Consumed String text} (found : name? text = some name) :
    ∃ word, c.identifier text = .success word name.rest ∧ name.value = String.ofList word := by
  obtain ⟨f, identified⟩ := documented.identifier_eq text
  rw [name?] at found
  split at found
  next => cases found
  next nonempty =>
    cases found
    rw [if_neg nonempty] at identified
    exact ⟨_, identified, rfl⟩

theorem identifier_of_none (absent : name? text = none) : ∃ f, c.identifier text = .failure f := by
  obtain ⟨f, identified⟩ := documented.identifier_eq text
  rw [name?] at absent
  split at absent
  next empty =>
    rw [if_pos empty] at identified
    exact ⟨f, identified⟩
  next => cases absent

end Combinators.Documented

end

end Stepwise.Formula
