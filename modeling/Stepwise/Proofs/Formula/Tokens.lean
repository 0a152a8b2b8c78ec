import Stepwise.Proofs.Formula.Completeness
import Stepwise.Proofs.Formula.Lexemes

/-!
# The tokens of a text

A text that is read is made of tokens, and of these in one way only: where a token ends is told by
the text behind it.

- `Tokenized`: the tokens that a text is read by
- `Fits.unique`: texts are told apart into tokens in one way
-/

namespace Stepwise.Formula

variable {rest rest' white white' : List Char} {part part' : Part} {tokens tokens' : List Token}

/-- A text is read as a tree by its tokens. Behind them is white space. -/
structure Tokenized (source : String) (tree : Tree) (tokens : List Token) (white : List Char) :
    Prop where
  text : source.toList = textOf tokens ++ white
  isWhite : IsWhite white
  derives : Derives .sum tokens tree
  fits : Fits tokens white

theorem Tree.exists_tokenized {source : String} {tree : Tree} (read : Tree.read source = .ok tree) :
    ∃ tokens white, Tokenized source tree tokens white := by
  obtain ⟨tokens, white, text, isWhite, derives, fits⟩ := Tree.derives_of_read read
  exact ⟨tokens, white, text, isWhite, derives, fits⟩

theorem Tokenized.read {source : String} {tree : Tree}
    (tokenized : Tokenized source tree tokens white) : Tree.read source = .ok tree :=
  Tree.read_of_derives tokenized.text tokenized.isWhite tokenized.derives tokenized.fits

/-! ## One part -/

theorem Part.text_lexeme (part : Part) : part.lexeme.text = part.text := by
  cases part with
  | literal | symbol => rfl
  | name word | function word =>
    by_cases pi : word = ['π'] <;> simp [lexeme, Lexeme.text, text, pi]

/-- The digits of a literal end where its exponent begins. -/
theorem IsMantissa.eq_of_append_eq {mantissa mantissa' exponent exponent' : List Char}
    (isMantissa : IsMantissa mantissa) (isMantissa' : IsMantissa mantissa')
    (isExponent : IsExponent exponent) (isExponent' : IsExponent exponent')
    (same : mantissa ++ exponent = mantissa' ++ exponent') :
    mantissa = mantissa' ∧ exponent = exponent' := by
  have avoids : Avoids isNumeralPart (exponent ++ []) := isExponent.avoids_append avoids_nil
  have avoids' : Avoids isNumeralPart (exponent' ++ []) := isExponent'.avoids_append avoids_nil
  rw [List.append_nil] at avoids avoids'
  have digits := congrArg (List.takeWhile isNumeralPart) same
  rw [takeWhile_append_of_avoids isMantissa.all avoids,
    takeWhile_append_of_avoids isMantissa'.all avoids'] at digits
  subst digits
  exact ⟨rfl, List.append_cancel_left same⟩

/-- No name stands before the parenthesis of an argument. -/
theorem Part.Fits.name_ne_function {word : List Char} (fits : (Part.name word).Fits rest)
    (fits' : (Part.function word).Fits rest) : False := by
  obtain ⟨-, -, -, closed⟩ := fits
  obtain ⟨-, inside, rfl⟩ := fits'
  cases avoids_cons.1 closed

/-- The lexeme of a name, of a function too, is that of no number and of no symbol. -/
theorem Part.name_lexeme_ne_numeral (word digits : List Char) :
    (Part.name word).lexeme ≠ .numeral digits := by
  intro same
  rw [lexeme] at same
  split at same <;> cases same

theorem Part.Fits.name_lexeme_ne {c : Char} (fits : (Part.symbol c).Fits rest) (word : List Char) :
    (Part.name word).lexeme ≠ .other c := by
  intro same
  rw [lexeme] at same
  split at same <;> cases same
  cases fits

theorem Part.Fits.eq_of_lexeme_eq (fits : part.Fits rest) (fits' : part'.Fits rest)
    (same : part.lexeme = part'.lexeme) : part = part' := by
  have texts : part.text = part'.text := by
    rw [← text_lexeme, same, text_lexeme]
  cases part with
  | literal mantissa exponent =>
    cases part' with
    | literal mantissa' exponent' =>
      obtain ⟨rfl, rfl⟩ := fits.1.eq_of_append_eq fits'.1 fits.2.1 fits'.2.1 texts
      rfl
    | name word | function word => exact absurd same.symm (name_lexeme_ne_numeral word _)
    | symbol => cases same
  | name word =>
    cases part' with
    | name word' => rw [show word = word' from texts]
    | function word' =>
      obtain rfl : word = word' := texts
      exact (fits.name_ne_function fits').elim
    | literal => exact absurd same (name_lexeme_ne_numeral word _)
    | symbol => exact absurd same (fits'.name_lexeme_ne word)
  | function word =>
    cases part' with
    | function word' => rw [show word = word' from texts]
    | name word' =>
      obtain rfl : word = word' := texts
      exact (fits'.name_ne_function fits).elim
    | literal => exact absurd same (name_lexeme_ne_numeral word _)
    | symbol => exact absurd same (fits'.name_lexeme_ne word)
  | symbol c =>
    cases part' with
    | symbol => rw [List.singleton_inj.1 texts]
    | literal => cases same
    | name word | function word => exact absurd same.symm (fits.name_lexeme_ne word)

theorem Part.Fits.unique (fits : part.Fits rest) (fits' : part'.Fits rest')
    (same : part.text ++ rest = part'.text ++ rest') : part = part' ∧ rest = rest' := by
  have pieces : part.lexeme :: Formula.lexemes rest = part'.lexeme :: Formula.lexemes rest' := by
    rw [← fits.lexemes, same, fits'.lexemes]
  have lexeme := (List.cons.inj pieces).1
  have texts : part.text = part'.text := by
    rw [← part.text_lexeme, lexeme, part'.text_lexeme]
  rw [texts] at same
  obtain rfl := List.append_cancel_left same
  exact ⟨fits.eq_of_lexeme_eq fits' lexeme, rfl⟩

/-! ## All tokens -/

/-- A part begins with a character that is neither blank nor white. -/
theorem Part.Fits.exists_visible (fits : part.Fits rest) :
    ∃ c more, part.text = c :: more ∧ isBlank c = false ∧ Text.whiteSpace.contains c = false := by
  obtain ⟨c, more, split, kind⟩ := fits.exists_cons
  have code : 32 < c.toNat ∧ c.toNat ≠ 133 ∧ c.toNat ≠ 160 ∧ c.toNat < 5760 := by
    rcases kind with (word | numeral | pi) | rfl
    · rw [isWordStart_iff] at word
      omega
    · rw [isNumeralPart_iff] at numeral
      omega
    · omega
    · have symbol := isSymbol_iff.1 fits
      omega
  refine ⟨c, more, split, ?_, ?_⟩
  · rw [← Bool.not_eq_true, isBlank_iff]
    omega
  · rw [← Bool.not_eq_true]
    intro white
    have codeWhite := toNat_of_whiteSpace white
    omega

theorem Fits.not_isWhite {token : Token} (fits : Fits (token :: tokens) rest) :
    ¬ IsWhite (textOf (token :: tokens) ++ rest) := by
  intro white
  obtain ⟨c, more, split, -, visible⟩ := fits.2.1.exists_visible
  rw [white c (by simp [Token.text, split])] at visible
  cases visible

/-- A text is told apart into tokens and the white space behind them in one way. -/
theorem Fits.unique (fits : Fits tokens white) (fits' : Fits tokens' white')
    (isWhite : IsWhite white) (isWhite' : IsWhite white')
    (same : textOf tokens ++ white = textOf tokens' ++ white') :
    tokens = tokens' ∧ white = white' := by
  induction tokens generalizing tokens' with
  | nil =>
    cases tokens' with
    | nil => exact ⟨rfl, same⟩
    | cons token' tokens' =>
      rw [textOf_nil, List.nil_append] at same
      rw [same] at isWhite
      exact absurd isWhite fits'.not_isWhite
  | cons token tokens ih =>
    cases tokens' with
    | nil =>
      rw [textOf_nil, List.nil_append] at same
      rw [← same] at isWhite'
      exact absurd isWhite' fits.not_isWhite
    | cons token' tokens' =>
      obtain ⟨blanks, part⟩ := token
      obtain ⟨blanks', part'⟩ := token'
      obtain ⟨blank, fitsPart, fitsTokens⟩ := fits
      obtain ⟨blank', fitsPart', fitsTokens'⟩ := fits'
      simp only [textOf_cons, Token.text, List.append_assoc] at same
      -- The blanks before a part end where the part begins.
      have stops {part : Part} {rest : List Char} (fits : part.Fits rest) :
          Avoids isBlank (part.text ++ rest) := by
        obtain ⟨c, more, split, visible, -⟩ := fits.exists_visible
        rw [split]
        exact avoids_cons.2 visible
      have blanksSame := congrArg (List.takeWhile isBlank) same
      rw [takeWhile_append_of_avoids blank (stops fitsPart),
        takeWhile_append_of_avoids blank' (stops fitsPart')] at blanksSame
      subst blanksSame
      obtain ⟨rfl, behind⟩ := fitsPart.unique fitsPart' (List.append_cancel_left same)
      obtain ⟨rfl, rfl⟩ := ih fitsTokens fitsTokens' behind
      exact ⟨rfl, rfl⟩

theorem Tokenized.unique {source : String} {tree tree' : Tree}
    (tokenized : Tokenized source tree tokens white)
    (other : Tokenized source tree' tokens' white') : tokens = tokens' ∧ white = white' :=
  tokenized.fits.unique other.fits tokenized.isWhite other.isWhite
    (tokenized.text.symm.trans other.text)

end Stepwise.Formula
