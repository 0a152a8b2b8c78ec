import Stepwise.Proofs.Formula.Lexemes
import Stepwise.Proofs.Formula.Names

/-!
# Numbers in place of the variable

What the substitution does to the text of a formula, said of its tokens.

- `Numeral`: a number as it is written, `Numeral.tree` the tree that it is read as
- `plugTokens`: tokens with a number in place of the variable
- `substitutePieces_tokens`: the substitution writes these tokens
-/

namespace Stepwise.Formula

/-! ## Numbers in place of the variable -/

/-- A number as it is written for the variable. -/
structure Numeral where
  negative : Bool
  digits : List Char
  isMantissa : IsMantissa digits

namespace Numeral

def text (n : Numeral) : List Char := if n.negative then '-' :: n.digits else n.digits

def tree (n : Numeral) : Tree :=
  if n.negative then .negate (.number (literalValue n.digits)) else .number (literalValue n.digits)

/-- What is written for the variable behind a character. -/
def tokens (n : Numeral) (blanks : List Char) (previous : Option Char) : List Token :=
  if n.negative then
    [⟨blanks, .symbol '('⟩, ⟨[], .symbol '-'⟩, ⟨[], .literal n.digits []⟩, ⟨[], .symbol ')'⟩]
  else if previous.any endsOperand then
    [⟨blanks, .symbol '('⟩, ⟨[], .literal n.digits []⟩, ⟨[], .symbol ')'⟩]
  else [⟨blanks, .literal n.digits []⟩]

theorem head?_text (n : Numeral) : n.text.head? = some '-' ↔ n.negative = true := by
  obtain ⟨negative, digits, isMantissa⟩ := n
  cases negative with
  | true => simp [text]
  | false =>
    cases digits with
    | nil => exact absurd rfl isMantissa.ne_nil
    | cons c digits =>
      have code := isNumeralPart_iff.1 (isMantissa.all c List.mem_cons_self)
      simp only [text, Bool.false_eq_true, if_false, List.head?_cons, Option.some.injEq, iff_false,
        eq_iff_toNat_eq]
      have minus : '-'.toNat = 45 := rfl
      omega

theorem known_tree (n : Numeral) (variableName : String) : n.tree.Known variableName := by
  rw [tree]
  split <;> trivial

theorem textOf_tokens (n : Numeral) (blanks : List Char) (previous : Option Char) :
    textOf (n.tokens blanks previous) = blanks ++ insertion n.text previous := by
  have sign := n.head?_text
  obtain ⟨negative, digits, isMantissa⟩ := n
  cases negative with
  | true => simp [tokens, text, insertion, Token.text, Part.text]
  | false =>
    have positive : ¬ (text ⟨false, digits, isMantissa⟩).head? = some '-' := by simp [sign]
    simp only [tokens, insertion, positive, decide_false, Bool.false_or, Bool.false_eq_true,
      if_false]
    split <;> simp [text, Token.text, Part.text]

end Numeral

variable {v : List Char} {n : Numeral} {c : Char}

theorem insertion_of_endsOperand {value : List Char} (ends : endsOperand c = true) :
    insertion value (some c) = '(' :: value ++ [')'] := by simp [insertion, ends]

theorem insertion_of_negative (negative : n.negative = true) (previous : Option Char) :
    insertion n.text previous = '(' :: n.text ++ [')'] := by
  simp [insertion, n.head?_text.2 negative]

theorem insertion_bare (positive : n.negative = false) (noOperand : endsOperand c = false) :
    insertion n.text (some c) = n.digits := by
  have noSign : ¬ n.text.head? = some '-' := by simp [n.head?_text, positive]
  rw [insertion, if_neg (by simp [noSign, noOperand]), Numeral.text, if_neg (by simp [positive])]

/-! ## Tokens in place of the variable -/

/-- The last character written. -/
def after (previous : Option Char) (tokens : List Token) : Option Char :=
  (textOf tokens).getLast?.or previous

theorem after_append (previous : Option Char) (first second : List Token) :
    after previous (first ++ second) = after (after previous first) second := by
  simp [after, List.getLast?_append, Option.or_assoc]

/-- A token, or what is written for it if it is the variable. -/
def Token.plug (v : List Char) (n : Numeral) (previous : Option Char) (token : Token) :
    List Token :=
  match token.part with
  | .name word =>
    if word = v then n.tokens token.blanks (token.blanks.getLast?.or previous) else [token]
  | _ => [token]

def plugTokens (v : List Char) (n : Numeral) : Option Char → List Token → List Token
  | _, [] => []
  | previous, token :: tokens =>
    let written := token.plug v n previous
    written ++ plugTokens v n (after previous written) tokens

theorem Token.plug_of_ne {token : Token} (other : token.part ≠ .name v) (previous : Option Char) :
    token.plug v n previous = [token] := by
  obtain ⟨blanks, part⟩ := token
  cases part with
  | name word => exact if_neg fun same => other (by rw [same])
  | literal | function | symbol => rfl

theorem Token.plug_variable (blanks : List Char) (previous : Option Char) :
    Token.plug v n previous ⟨blanks, .name v⟩ =
      n.tokens blanks (blanks.getLast?.or previous) := if_pos rfl

theorem plugTokens_append (previous : Option Char) (first second : List Token) :
    plugTokens v n previous (first ++ second) =
      plugTokens v n previous first ++
        plugTokens v n (after previous (plugTokens v n previous first)) second := by
  induction first generalizing previous with
  | nil => rfl
  | cons token first ih =>
    simp only [List.cons_append, plugTokens, ih, List.append_assoc, after_append]

/-! ## What the substitution writes -/

section

variable {variableName value : List Char}

theorem substitutePieces_others (cs : List Char) (previous : Option Char) (pieces : List Lexeme) :
    substitutePieces variableName value previous (cs.map .other ++ pieces) =
      cs ++ substitutePieces variableName value (cs.getLast?.or previous) pieces := by
  induction cs generalizing previous with
  | nil => rfl
  | cons c cs ih =>
    simp [substitutePieces, replacement, Lexeme.text, ih, List.getLast?_cons]

theorem substitutePieces_token (notPi : v ≠ ['π']) {token : Token}
    (noCall : token.part ≠ .function v) (previous : Option Char) (pieces : List Lexeme) :
    substitutePieces v n.text previous (token.lexemes ++ pieces) =
      textOf (token.plug v n previous) ++
        substitutePieces v n.text (after previous (token.plug v n previous)) pieces := by
  obtain ⟨blanks, part⟩ := token
  -- The blanks are copied, and the part is replaced as its lexeme is.
  have written : textOf (Token.plug v n previous ⟨blanks, part⟩) =
      blanks ++ replacement v n.text (blanks.getLast?.or previous) part.lexeme := by
    cases part with
    | literal mantissa exponent =>
      simp [Token.plug, Token.text, Part.text, Part.lexeme, replacement, Lexeme.text]
    | symbol c => simp [Token.plug, Token.text, Part.text, Part.lexeme, replacement, Lexeme.text]
    | function word =>
      have other : word ≠ v := fun same => noCall (by rw [same])
      by_cases pi : word = ['π']
      · simp [Token.plug, Token.text, Part.text, Part.lexeme, replacement, Lexeme.text, pi]
      · simp [Token.plug, Token.text, Part.text, Part.lexeme, replacement, pi, other]
    | name word =>
      by_cases same : word = v
      · subst same
        simp [Token.plug, Part.lexeme, replacement, notPi, Numeral.textOf_tokens]
      · by_cases pi : word = ['π']
        · subst pi
          simp [Token.plug, Token.text, Part.text, Part.lexeme, replacement, Lexeme.text, same]
        · simp [Token.plug, Token.text, Part.text, Part.lexeme, replacement, pi, same]
  -- The next token sees the character that the substitution has written last.
  have last : after previous (Token.plug v n previous ⟨blanks, part⟩) =
      (replacement v n.text (blanks.getLast?.or previous) part.lexeme).getLast?.or
        (blanks.getLast?.or previous) := by
    rw [after, written, List.getLast?_append, Option.or_assoc]
  rw [Token.lexemes, List.append_assoc, substitutePieces_others, List.singleton_append,
    substitutePieces, written, last, List.append_assoc]

theorem substitutePieces_tokens (notPi : v ≠ ['π']) {tokens : List Token}
    (noCall : ∀ token ∈ tokens, token.part ≠ .function v) (previous : Option Char)
    (pieces : List Lexeme) :
    substitutePieces v n.text previous (tokens.flatMap Token.lexemes ++ pieces) =
      textOf (plugTokens v n previous tokens) ++
        substitutePieces v n.text (after previous (plugTokens v n previous tokens)) pieces := by
  induction tokens generalizing previous with
  | nil => rfl
  | cons token tokens ih =>
    rw [List.flatMap_cons, List.append_assoc,
      substitutePieces_token notPi (noCall token List.mem_cons_self),
      ih fun token member => noCall token (List.mem_cons_of_mem _ member), plugTokens, after_append,
      textOf_append, List.append_assoc]

end

end Stepwise.Formula
