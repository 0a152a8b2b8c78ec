import Stepwise.Proofs.Formula.Derivation

/-!
# The lexemes of a formula

The substitution cuts a text into lexemes without knowing the grammar. On tokens that fit the text
behind them it finds the tokens.

- `Token.lexemes`: a token as the substitution sees it
- `lexemes_textOf`: the lexemes of a text that starts with tokens
-/

namespace Stepwise.Formula

variable {c : Char} {mantissa exponent word rest : List Char}

/-! ## Single lexemes -/

/-- Any run of digits and points begins a number, also one that no formula has. -/
theorem lexemes_digits {digits : List Char} (nonempty : digits ≠ [])
    (all : ∀ d ∈ digits, isNumeralPart d = true) (avoids : Avoids isNumeralPart rest) :
    lexemes (digits ++ rest) =
      .numeral (digits ++ (splitExponent rest).1) :: lexemes (splitExponent rest).2 := by
  cases digits with
  | nil => exact absurd rfl nonempty
  | cons c digits =>
    obtain ⟨first, others⟩ := List.forall_mem_cons.1 all
    have noWord : ¬ isWordStart c = true := by
      rw [isWordStart_iff]
      have code := isNumeralPart_iff.1 first
      omega
    rw [List.cons_append, lexemes, if_neg noWord, if_pos first,
      takeWhile_append_of_avoids others avoids, dropWhile_append_of_avoids others avoids]

theorem lexemes_mantissa (isMantissa : IsMantissa mantissa) (avoids : Avoids isNumeralPart rest) :
    lexemes (mantissa ++ rest) =
      .numeral (mantissa ++ (splitExponent rest).1) :: lexemes (splitExponent rest).2 :=
  lexemes_digits isMantissa.ne_nil isMantissa.all avoids

theorem lexemes_literal (isMantissa : IsMantissa mantissa) (isExponent : IsExponent exponent)
    (avoids : Avoids isNumeralPart rest)
    (absent : exponent = [] → (splitExponent rest).1 = []) :
    lexemes (mantissa ++ exponent ++ rest) = .numeral (mantissa ++ exponent) :: lexemes rest := by
  rw [List.append_assoc, lexemes_mantissa isMantissa (isExponent.avoids_append avoids),
    isExponent.splitExponent_eq avoids absent]

theorem lexemes_word (start : isWordStart c = true) (parts : ∀ d ∈ word, isWordPart d = true)
    (avoids : Avoids isWordPart rest) :
    lexemes (c :: word ++ rest) = .word (c :: word) :: lexemes rest := by
  rw [List.cons_append, lexemes, if_pos start, takeWhile_append_of_avoids parts avoids,
    dropWhile_append_of_avoids parts avoids]

theorem lexemes_other (noWord : isWordStart c = false) (noNumeral : isNumeralPart c = false) :
    lexemes (c :: rest) = .other c :: lexemes rest := by
  rw [lexemes, if_neg (by simp [noWord]), if_neg (by simp [noNumeral])]

theorem lexemes_symbol (symbol : isSymbol c = true) :
    lexemes (c :: rest) = .other c :: lexemes rest := by
  have code := isSymbol_iff.1 symbol
  apply lexemes_other
  · rw [← Bool.not_eq_true, isWordStart_iff]
    omega
  · rw [← Bool.not_eq_true, isNumeralPart_iff]
    omega

theorem lexemes_others {front : List Char}
    (others : ∀ c ∈ front, isWordStart c = false ∧ isNumeralPart c = false) :
    lexemes (front ++ rest) = front.map .other ++ lexemes rest := by
  induction front with
  | nil => rfl
  | cons c front ih =>
    obtain ⟨noWord, noNumeral⟩ := others c List.mem_cons_self
    rw [List.cons_append, lexemes_other noWord noNumeral,
      ih fun d member => others d (List.mem_cons_of_mem c member)]
    rfl

theorem lexemes_blanks {blanks : List Char} (blank : ∀ b ∈ blanks, isBlank b = true) :
    lexemes (blanks ++ rest) = blanks.map .other ++ lexemes rest := by
  apply lexemes_others
  intro c member
  have code := isBlank_iff.1 (blank c member)
  simp only [← Bool.not_eq_true, isWordStart_iff, isNumeralPart_iff]
  omega

theorem lexemes_name (isName : IsName word) (ends : word = ['π'] ∨ Avoids isWordPart rest) :
    lexemes (word ++ rest) =
      (if word = ['π'] then .other 'π' else .word word) :: lexemes rest := by
  cases isName with
  | pi => exact lexemes_other (by decide) (by decide)
  | @word c parts start all =>
    have notPi : c :: parts ≠ ['π'] := by
      intro same
      rw [(List.cons.inj same).1] at start
      exact absurd start (by decide)
    rw [if_neg notPi]
    exact lexemes_word start all (ends.resolve_left notPi)

/-! ## Tokens -/

/-- A part as the substitution sees it. -/
def Part.lexeme : Part → Lexeme
  | .literal mantissa exponent => .numeral (mantissa ++ exponent)
  | .name word => if word = ['π'] then .other 'π' else .word word
  | .function word => if word = ['π'] then .other 'π' else .word word
  | .symbol c => .other c

def Token.lexemes (token : Token) : List Lexeme :=
  token.blanks.map .other ++ [token.part.lexeme]

theorem Part.Fits.lexemes {part : Part} (fits : part.Fits rest) :
    lexemes (part.text ++ rest) = part.lexeme :: lexemes rest := by
  cases part with
  | literal mantissa exponent =>
    obtain ⟨isMantissa, isExponent, avoids, absent⟩ := fits
    exact lexemes_literal isMantissa isExponent avoids absent
  | name word =>
    obtain ⟨isName, ends, -⟩ := fits
    exact lexemes_name isName ends
  -- The parenthesis behind a function ends its name.
  | function word =>
    obtain ⟨isName, inside, rfl⟩ := fits
    exact lexemes_name isName (.inr (avoids_cons.2 (by decide)))
  | symbol c => exact lexemes_symbol fits

theorem lexemes_textOf {tokens : List Token} (fits : Fits tokens rest) :
    lexemes (textOf tokens ++ rest) = tokens.flatMap Token.lexemes ++ lexemes rest := by
  induction tokens with
  | nil => rfl
  | cons token tokens ih =>
    obtain ⟨blank, fitsPart, fitsTokens⟩ := fits
    rw [textOf_cons, Token.text, List.append_assoc, List.append_assoc, lexemes_blanks blank,
      fitsPart.lexemes, ih fitsTokens]
    simp [Token.lexemes]

theorem Fits.lexemes {token : Token} {tokens : List Token} (fits : Fits (token :: tokens) rest) :
    Formula.lexemes (textOf (token :: tokens) ++ rest) =
      token.blanks.map .other ++ token.part.lexeme :: lexemes (textOf tokens ++ rest) := by
  rw [lexemes_textOf fits, lexemes_textOf fits.2.2]
  simp [Token.lexemes]

theorem lexemes_of_isWhite (white : IsWhite rest) : lexemes rest = rest.map .other := by
  have others : ∀ c ∈ rest, isWordStart c = false ∧ isNumeralPart c = false := by
    intro c member
    have code := toNat_of_whiteSpace (white c member)
    simp only [← Bool.not_eq_true, isWordStart_iff, isNumeralPart_iff]
    omega
  have whole : lexemes (rest ++ []) = rest.map .other ++ lexemes [] := lexemes_others others
  simpa [lexemes] using whole

/-! ## The first lexeme -/

variable {tokens : List Token} {white : List Char} {pieces : List Lexeme}

theorem exists_numeralPart_of_head {text digits : List Char}
    (first : (lexemes text).head? = some (.numeral digits)) :
    ∃ c rest, text = c :: rest ∧ isNumeralPart c = true := by
  cases text with
  | nil => simp [lexemes] at first
  | cons c rest =>
    rw [lexemes] at first
    split at first
    next => cases first
    next =>
      split at first
      next numeral => exact ⟨c, rest, rfl, numeral⟩
      next => cases first

theorem head?_of_other {text : List Char} (first : (lexemes text).head? = some (.other c)) :
    text.head? = some c := by
  cases text with
  | nil => simp [lexemes] at first
  | cons d rest =>
    rw [lexemes] at first
    split at first
    next => cases first
    next =>
      split at first
      next => cases first
      next =>
        cases first
        rfl

theorem exists_numeral_of_numeralPart (numeral : isNumeralPart c = true) (rest : List Char) :
    ∃ digits behind, lexemes (c :: rest) = .numeral digits :: behind := by
  have code := isNumeralPart_iff.1 numeral
  have noWord : ¬ isWordStart c = true := by
    rw [isWordStart_iff]
    omega
  rw [lexemes, if_neg noWord, if_pos numeral]
  exact ⟨_, _, rfl⟩

/-- The part at the front of the lexemes is the first token. -/
theorem Fits.front_of_lexeme {piece : Lexeme} {pieces : List Lexeme} (fits : Fits tokens white)
    (isWhite : IsWhite white) (split : Formula.lexemes (textOf tokens ++ white) = piece :: pieces)
    (visible : ∀ d, piece = .other d → isSymbol d = true) :
    ∃ part more, tokens = ⟨[], part⟩ :: more ∧ part.lexeme = piece ∧
      part.Fits (textOf more ++ white) ∧ Fits more white ∧
      Formula.lexemes (textOf more ++ white) = pieces := by
  cases tokens with
  | nil =>
    -- Without tokens only white space is left, and no symbol is white.
    rw [textOf_nil, List.nil_append, lexemes_of_isWhite isWhite] at split
    cases white with
    | nil => cases split
    | cons d white =>
      cases split
      have code := isSymbol_iff.1 (visible d rfl)
      have codeWhite := toNat_of_whiteSpace (isWhite d List.mem_cons_self)
      omega
  | cons token more =>
    rw [fits.lexemes] at split
    obtain ⟨blanks, part⟩ := token
    obtain ⟨blank, fitsPart, fitsTokens⟩ := fits
    cases blanks with
    -- A blank would be a lexeme of its own, and no symbol is blank.
    | cons d blanks =>
      cases split
      have code := isSymbol_iff.1 (visible d rfl)
      have codeBlank := isBlank_iff.1 (blank d List.mem_cons_self)
      omega
    | nil =>
      cases split
      exact ⟨part, more, rfl, rfl, fitsPart, fitsTokens, rfl⟩

theorem Fits.front_of_word {word : List Char} {pieces : List Lexeme} (fits : Fits tokens white)
    (isWhite : IsWhite white)
    (split : Formula.lexemes (textOf tokens ++ white) = .word word :: pieces) :
    ∃ more, (tokens = ⟨[], .name word⟩ :: more ∨
        tokens = ⟨[], .function word⟩ :: more ∧ ∃ behind, pieces = .other '(' :: behind) ∧
      Fits more white ∧ Formula.lexemes (textOf more ++ white) = pieces := by
  obtain ⟨part, more, rfl, same, fitsPart, fitsMore, behind⟩ :=
    fits.front_of_lexeme isWhite split (by simp)
  refine ⟨more, ?_, fitsMore, behind⟩
  cases part with
  | literal | symbol => cases same
  | name other =>
    rw [Part.lexeme] at same
    split at same <;> cases same
    exact .inl rfl
  | function other =>
    rw [Part.lexeme] at same
    split at same <;> cases same
    obtain ⟨-, inside, opened⟩ := fitsPart
    rw [opened, lexemes_other (by decide) (by decide)] at behind
    exact .inr ⟨rfl, _, behind.symm⟩

theorem Fits.front_of_symbol {pieces : List Lexeme} (fits : Fits tokens white)
    (isWhite : IsWhite white) (symbol : isSymbol c = true)
    (split : Formula.lexemes (textOf tokens ++ white) = .other c :: pieces) :
    ∃ more, tokens = ⟨[], .symbol c⟩ :: more ∧ Fits more white ∧
      Formula.lexemes (textOf more ++ white) = pieces := by
  obtain ⟨part, more, rfl, same, fitsPart, fitsMore, behind⟩ :=
    fits.front_of_lexeme isWhite split (by simpa using symbol)
  refine ⟨more, ?_, fitsMore, behind⟩
  cases part with
  | literal => cases same
  | symbol =>
    cases same
    rfl
  | name | function =>
    rw [Part.lexeme] at same
    split at same <;> cases same
    cases symbol

/-- The variable at the front of the lexemes is the first token. -/
theorem Fits.front_of_variable {pieces : List Lexeme} (fits : Fits tokens white)
    (isWhite : IsWhite white) (noCall : ∀ token ∈ tokens, token.part ≠ .function v)
    (split : Formula.lexemes (textOf tokens ++ white) = .word v :: pieces) :
    ∃ more, tokens = ⟨[], .name v⟩ :: more := by
  obtain ⟨more, rfl | ⟨rfl, -⟩, -⟩ := fits.front_of_word isWhite split
  · exact ⟨more, rfl⟩
  · exact absurd rfl (noCall _ List.mem_cons_self)

theorem Part.Fits.eq_function {part : Part} {pieces : List Lexeme} {word : List Char}
    (fits : part.Fits rest) (same : part.lexeme = .word word)
    (split : Formula.lexemes rest = .other '(' :: pieces) : part = .function word := by
  cases part with
  | literal | symbol => cases same
  -- A name does not fit in front of a parenthesis.
  | name other =>
    obtain ⟨-, -, -, closed⟩ := fits
    cases closed _ (head?_of_other (by rw [split]; rfl))
  | function other =>
    rw [lexeme] at same
    split at same <;> cases same
    rfl

theorem Part.Fits.eq_pi {part : Part} {pieces : List Lexeme} {word : List Char}
    (fits : part.Fits rest) (isPi : part.lexeme = .other 'π')
    (split : Formula.lexemes rest = .word word :: pieces) : part = .name ['π'] := by
  cases part with
  | literal => cases isPi
  | symbol d =>
    cases isPi
    cases fits
  | name other =>
    rw [lexeme] at isPi
    split at isPi
    next same => rw [same]
    next => cases isPi
  | function other =>
    obtain ⟨-, inside, rfl⟩ := fits
    rw [lexemes_other (by decide) (by decide)] at split
    cases split

theorem Part.Fits.eq_literal {part : Part} {digits : List Char} (fits : part.Fits rest)
    (isNumeral : part.lexeme = .numeral digits) (all : ∀ d ∈ digits, isNumeralPart d = true) :
    part = .literal digits [] ∧ IsMantissa digits := by
  cases part with
  | literal mantissa exponent =>
    cases isNumeral
    obtain ⟨isMantissa, isExponent, -⟩ := fits
    cases isExponent with
    | none =>
      rw [List.append_nil]
      exact ⟨rfl, isMantissa⟩
    | @some mark sign digits isMark =>
      -- The mark of an exponent is no digit and no point.
      have numeral := isNumeralPart_iff.1 (all mark (by simp))
      have code := isExponentMark_iff.1 isMark
      omega
  | symbol => cases isNumeral
  | name | function =>
    rw [lexeme] at isNumeral
    split at isNumeral <;> cases isNumeral

end Stepwise.Formula
