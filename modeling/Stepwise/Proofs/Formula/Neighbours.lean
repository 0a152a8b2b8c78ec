import Stepwise.Proofs.Formula.Clashes

/-!
# Lexemes side by side

Two numbers do not stand side by side in a formula, and the letter π stands neither before a number
nor before a parenthesis. Where a number clashes, the text that is written has such neighbours.

- `Lexeme.precedes`: what may stand before what
- `Fits.isChain`: formulas keep to it
- `not_isChain_plugTokens`: the text of a clash does not
-/

namespace Stepwise.Formula

variable {v : List Char} {n : Numeral} {c : Char} {tokens : List Token} {rest white : List Char}

/-! ## Neighbours -/

/-- Whether a lexeme stands before another in some formula. A number does not stand before a number,
and the letter π stands neither before a number nor before a parenthesis. -/
def Lexeme.precedes : Lexeme → Lexeme → Bool
  | .numeral _, .numeral _ => false
  | .other 'π', .numeral _ => false
  | .other 'π', .other '(' => false
  | _, _ => true

abbrev Lexeme.Precedes (first second : Lexeme) : Prop := first.precedes second = true

theorem precedes_of_other (other : c ≠ 'π') (piece : Lexeme) :
    (Lexeme.other c).Precedes piece := by
  rw [Lexeme.Precedes, Lexeme.precedes.eq_def]
  split <;> simp_all

theorem isChain_others {cs : List Char} {pieces : List Lexeme} (others : ∀ d ∈ cs, d ≠ 'π')
    (chain : pieces.IsChain Lexeme.Precedes) :
    (cs.map Lexeme.other ++ pieces).IsChain Lexeme.Precedes := by
  induction cs with
  | nil => exact chain
  | cons d cs ih =>
    rw [List.map_cons, List.cons_append, List.isChain_cons]
    exact ⟨fun piece _ => precedes_of_other (others d List.mem_cons_self) piece,
      ih fun e member => others e (List.mem_cons_of_mem d member)⟩

theorem Part.Fits.precedes {part : Part} (fits : part.Fits rest) (noPi : part ≠ .function ['π'])
    {piece : Lexeme} (next : (Formula.lexemes rest).head? = some piece) :
    part.lexeme.Precedes piece := by
  have noNumeral (avoids : Avoids isNumeralPart rest) (digits : List Char) :
      piece ≠ .numeral digits := by
    rintro rfl
    obtain ⟨c, behind, rfl, numeral⟩ := exists_numeralPart_of_head next
    rw [avoids_cons.1 avoids] at numeral
    cases numeral
  cases part with
  | literal mantissa exponent =>
    obtain ⟨-, -, avoids, -⟩ := fits
    cases piece with
    | numeral digits => exact absurd rfl (noNumeral avoids digits)
    | word | other => rfl
  | name word =>
    obtain ⟨-, -, avoids, closed⟩ := fits
    by_cases pi : word = ['π']
    · subst pi
      cases piece with
      | numeral digits => exact absurd rfl (noNumeral avoids digits)
      | word => rfl
      | other c =>
        have noOpening : c ≠ '(' := by
          rintro rfl
          cases closed _ (head?_of_other next)
        simp [Part.lexeme, Lexeme.Precedes, Lexeme.precedes, noOpening]
    · rw [Part.lexeme, if_neg pi]
      rfl
  | function word =>
    rw [Part.lexeme, if_neg (by simpa using noPi)]
    rfl
  | symbol c =>
    apply precedes_of_other
    rintro rfl
    cases fits

/-- The lexemes of a formula are neighbours that formulas have. -/
theorem Fits.isChain (fits : Fits tokens white) (isWhite : IsWhite white)
    (noPi : ∀ token ∈ tokens, token.part ≠ .function ['π']) :
    (Formula.lexemes (textOf tokens ++ white)).IsChain Lexeme.Precedes := by
  have notPi {d : Char} (small : d.toNat ≠ 960) : d ≠ 'π' := by
    rintro rfl
    exact small rfl
  induction tokens with
  | nil =>
    rw [textOf_nil, List.nil_append, lexemes_of_isWhite isWhite]
    have whole : (white.map Lexeme.other ++ []).IsChain Lexeme.Precedes :=
      isChain_others (fun d member => notPi (by
        have code := toNat_of_whiteSpace (isWhite d member)
        omega)) List.isChain_nil
    simpa using whole
  | cons token tokens ih =>
    rw [fits.lexemes]
    obtain ⟨blank, fitsPart, fitsTokens⟩ := fits
    apply isChain_others
    · intro d member
      apply notPi
      have code := isBlank_iff.1 (blank d member)
      omega
    · rw [List.isChain_cons]
      exact ⟨fun piece next => fitsPart.precedes (noPi token List.mem_cons_self) next,
        ih fitsTokens fun other member => noPi other (List.mem_cons_of_mem token member)⟩

/-! ## The letter π and exponents -/

theorem not_isChain_append {first pieces : List Lexeme} {piece next : Lexeme}
    (apart : piece.precedes next = false) :
    ¬ (first ++ piece :: next :: pieces).IsChain Lexeme.Precedes := by
  intro chain
  have neighbours := (List.isChain_cons_cons.1 chain.right_of_append).1
  rw [Lexeme.Precedes, apart] at neighbours
  cases neighbours

/-- What is written for the variable behind the letter π is read together with it. -/
theorem not_precedes_insertion (n : Numeral) (rest : List Char) :
    ∃ piece behind, lexemes (insertion n.text (some 'π') ++ rest) = piece :: behind ∧
      (Lexeme.other 'π').precedes piece = false := by
  cases negative : n.negative with
  | true =>
    rw [insertion_of_negative negative, List.append_assoc, List.cons_append,
      lexemes_other (by decide) (by decide)]
    exact ⟨_, _, rfl, rfl⟩
  | false =>
    have all := n.isMantissa.all
    rw [insertion_bare negative (by decide)]
    cases digits : n.digits with
    | nil => exact absurd digits n.isMantissa.ne_nil
    | cons d others =>
      rw [digits] at all
      obtain ⟨numeral, behind, split⟩ :=
        exists_numeral_of_numeralPart (all d List.mem_cons_self) (others ++ rest)
      exact ⟨_, behind, split, rfl⟩

theorem not_isChain_of_pi {blanks : List Char} {more : List Token} (notPi : v ≠ ['π'])
    (blank : ∀ b ∈ blanks, isBlank b = true) (previous : Option Char) :
    ¬ (lexemes (textOf (plugTokens v n previous
      (⟨blanks, .name ['π']⟩ :: ⟨[], .name v⟩ :: more)) ++ white)).IsChain Lexeme.Precedes := by
  obtain ⟨others, written⟩ : ∃ others, textOf (plugTokens v n previous
      (⟨blanks, .name ['π']⟩ :: ⟨[], .name v⟩ :: more)) ++ white =
        blanks ++ 'π' :: (insertion n.text (some 'π') ++ others) := by
    rw [plugTokens, Token.plug_of_ne (by simpa using notPi.symm), plugTokens, Token.plug_variable]
    simp [after, Token.text, Part.text, Numeral.textOf_tokens]
  obtain ⟨piece, pieces, inserted, apart⟩ := not_precedes_insertion n others
  rw [written, lexemes_blanks blank, lexemes_other (by decide) (by decide), inserted]
  exact not_isChain_append apart

/-- A number with a point, digits in front of it. -/
def Numeral.Pointed (n : Numeral) : Prop :=
  ∃ whole part, n.digits = whole ++ '.' :: part ∧ whole ≠ [] ∧ ∀ c ∈ whole, c.isDigit = true

theorem not_isChain_of_exponent {blanks digits : List Char} {mark sign : Char} {more : List Token}
    (pointed : n.Pointed) (blank : ∀ b ∈ blanks, isBlank b = true) (isMantissa : IsMantissa digits)
    (positive : n.negative = false) (isMark : isExponentMark mark = true) (other : [mark] ≠ v)
    (isSign : sign = '+' ∨ sign = '-') (previous : Option Char) :
    ¬ (lexemes (textOf (plugTokens v n previous (⟨blanks, .literal digits []⟩ ::
      ⟨[], .name [mark]⟩ :: ⟨[], .symbol sign⟩ :: ⟨[], .name v⟩ :: more)) ++ white)).IsChain
        Lexeme.Precedes := by
  obtain ⟨whole, part, split, nonempty, all⟩ := pointed
  have noOperand : endsOperand sign = false := by
    rcases isSign with rfl | rfl <;> rfl
  obtain ⟨others, written⟩ : ∃ others, textOf (plugTokens v n previous
      (⟨blanks, .literal digits []⟩ :: ⟨[], .name [mark]⟩ :: ⟨[], .symbol sign⟩ ::
        ⟨[], .name v⟩ :: more)) ++ white =
        blanks ++ (digits ++ (mark :: [sign] ++ whole ++ '.' :: others)) := by
    rw [plugTokens, Token.plug_of_ne (by simp), plugTokens, Token.plug_of_ne (by simpa using other),
      plugTokens, Token.plug_of_ne (by simp), plugTokens, Token.plug_variable]
    simp [after, Token.text, Part.text, Numeral.textOf_tokens, insertion_bare positive noOperand,
      split]
  -- The digits before the point go to the exponent, and the point begins a second number.
  have isExponent : IsExponent (mark :: [sign] ++ whole) :=
    .some isMark (by simpa using isSign) nonempty all
  have noNumeral : Avoids isNumeralPart (mark :: [sign] ++ whole ++ '.' :: others) := by
    have code := isExponentMark_iff.1 isMark
    rw [List.cons_append, List.cons_append, avoids_cons, ← Bool.not_eq_true, isNumeralPart_iff]
    omega
  obtain ⟨numeral, behind, next⟩ := exists_numeral_of_numeralPart (c := '.') rfl others
  rw [written, lexemes_blanks blank, lexemes_mantissa isMantissa noNumeral,
    isExponent.splitExponent_of_ne_nil (by simp) (avoids_cons.2 rfl), next]
  exact not_isChain_append rfl

theorem clashes_others {negative : Bool} {blanks : List Char} {pieces : List Lexeme}
    (blank : ∀ b ∈ blanks, b ≠ 'π') :
    clashes v negative (blanks.map .other ++ pieces) = clashes v negative pieces := by
  induction blanks with
  | nil => rfl
  | cons b blanks ih =>
    have noClash : clash v negative (.other b :: (blanks.map .other ++ pieces)) = false := by
      rw [← Bool.not_eq_true, clash_iff]
      rintro (⟨_, same⟩ | ⟨_, same⟩ | ⟨_, _, _, _, same, -⟩)
      · cases same
      · exact blank b List.mem_cons_self (by injection (List.cons.inj same).1)
      · cases same
    rw [List.map_cons, List.cons_append, clashes, noClash, Bool.false_or]
    exact ih fun d member => blank d (List.mem_cons_of_mem b member)

/-- Where a number clashes, the text has neighbours that no formula has. -/
theorem not_isChain_plugTokens (isName : IsName v) (notPi : v ≠ ['π']) (pointed : n.Pointed)
    (isWhite : IsWhite white) (fits : Fits tokens white)
    (noCall : ∀ token ∈ tokens, token.part ≠ .function v)
    (clashing : clashes v n.negative (lexemes (textOf tokens ++ white)) = true)
    (previous : Option Char) :
    ¬ (lexemes (textOf (plugTokens v n previous tokens) ++ white)).IsChain Lexeme.Precedes := by
  induction tokens generalizing previous with
  | nil =>
    rw [textOf_nil, List.nil_append, lexemes_of_isWhite isWhite, ← List.append_nil (white.map _),
      clashes_others] at clashing
    · cases clashing
    · rintro b member rfl
      have code := toNat_of_whiteSpace (isWhite _ member)
      revert code
      decide
  | cons token tokens ih =>
    have noCallBehind : ∀ other ∈ tokens, other.part ≠ .function v := fun other member =>
      noCall other (List.mem_cons_of_mem token member)
    have fits' := fits
    obtain ⟨blanks, part⟩ := token
    obtain ⟨blank, fitsPart, fitsTokens⟩ := fits'
    rw [fits.lexemes, clashes_others, clashes, Bool.or_eq_true] at clashing
    · cases here : clash v n.negative (part.lexeme :: lexemes (textOf tokens ++ white)) with
      | false =>
        -- Without a clash the token is told apart, and the neighbours are behind it.
        have fitsToken := fits_plug isName notPi isWhite fits here noCallBehind previous
        intro chain
        rw [plugTokens, textOf_append, List.append_assoc, lexemes_textOf fitsToken] at chain
        rw [here] at clashing
        exact ih fitsTokens noCallBehind (clashing.resolve_left Bool.false_ne_true) _
          chain.right_of_append
      | true =>
        obtain ⟨behind, split⟩ | ⟨behind, split⟩ | ⟨digits, mark, sign, behind, split, positive,
          all, isMark, other, isSign⟩ := clash_iff.1 here
        · obtain ⟨same, opened⟩ := List.cons.inj split
          exact absurd (fitsPart.eq_function same opened) (noCall _ List.mem_cons_self)
        · obtain ⟨isPi, first⟩ := List.cons.inj split
          obtain rfl := fitsPart.eq_pi isPi first
          obtain ⟨more, rfl⟩ := fitsTokens.front_of_variable isWhite noCallBehind first
          exact not_isChain_of_pi notPi blank previous
        · obtain ⟨isNumeral, first⟩ := List.cons.inj split
          obtain ⟨rfl, isMantissa⟩ := fitsPart.eq_literal isNumeral all
          have symbol : isSymbol sign = true := by
            rcases isSign with rfl | rfl <;> rfl
          obtain ⟨_, rfl | ⟨-, _, opened⟩, fitsSign, splitSign⟩ :=
            fitsTokens.front_of_word isWhite first
          · obtain ⟨_, rfl, fitsVariable, splitVariable⟩ :=
              fitsSign.front_of_symbol isWhite symbol splitSign
            obtain ⟨more, rfl⟩ := fitsVariable.front_of_variable isWhite
              (fun token member => noCallBehind token (by simp [member])) splitVariable
            exact not_isChain_of_exponent pointed blank isMantissa positive isMark other isSign
              previous
          · cases opened
            rcases isSign with sign | sign <;> cases sign
    · rintro b member rfl
      cases blank _ member

end Stepwise.Formula
