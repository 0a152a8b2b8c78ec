import Stepwise.Proofs.Formula.Plugging

/-!
# Where a number cannot stand

There are three places where a number cannot stand for the variable: the variable has the name of a
function that is called, it stands directly behind the letter π, or the number would complete the
exponent of a literal. Elsewhere the tokens with a number in place of the variable are told apart as
before.

- `clash`, `clashes`: whether there is such a place
- `fits_plugTokens`: the tokens fit again
-/

namespace Stepwise.Formula

variable {v : List Char} {n : Numeral}

/-! ## Where a number cannot stand -/

/-- Whether a value written for the variable would be read together with what is around it, at the
front of a list of lexemes: it would be called, it would be read behind the letter π, or it would
complete an exponent. -/
def clash (v : List Char) (negative : Bool) : List Lexeme → Bool
  | .word word :: .other '(' :: _ => word = v
  | .other 'π' :: .word word :: _ => word = v
  | .numeral digits :: .word [mark] :: .other sign :: .word word :: _ =>
    !negative && digits.all isNumeralPart && isExponentMark mark && [mark] ≠ v &&
      (sign == '+' || sign == '-') && word = v
  | _ => false

/-- The three kinds of clashes. -/
theorem clash_iff {negative : Bool} {pieces : List Lexeme} : clash v negative pieces = true ↔
    (∃ behind, pieces = .word v :: .other '(' :: behind) ∨
    (∃ behind, pieces = .other 'π' :: .word v :: behind) ∨
    ∃ digits mark sign behind,
      pieces = .numeral digits :: .word [mark] :: .other sign :: .word v :: behind ∧
      negative = false ∧ (∀ d ∈ digits, isNumeralPart d = true) ∧ isExponentMark mark = true ∧
      [mark] ≠ v ∧ (sign = '+' ∨ sign = '-') := by
  constructor
  · intro found
    unfold clash at found
    split at found
    next word behind => exact .inl ⟨behind, by rw [of_decide_eq_true found]⟩
    next word behind => exact .inr (.inl ⟨behind, by rw [of_decide_eq_true found]⟩)
    next digits mark sign word behind =>
      simp only [Bool.and_eq_true, Bool.or_eq_true, Bool.not_eq_true', List.all_eq_true,
        decide_eq_true_eq, beq_iff_eq] at found
      obtain ⟨⟨⟨⟨⟨positive, all⟩, isMark⟩, other⟩, isSign⟩, same⟩ := found
      rw [same]
      exact .inr (.inr ⟨digits, mark, sign, behind, rfl, positive, all, isMark, other, isSign⟩)
    next => cases found
  · rintro (⟨behind, rfl⟩ | ⟨behind, rfl⟩ | ⟨digits, mark, sign, behind, rfl, positive, all, isMark,
      other, isSign⟩)
    · simp [clash]
    · simp [clash]
    · simp [clash, positive, isMark, other, isSign]
      exact all

/-- Whether there is a clash anywhere. -/
def clashes (v : List Char) (negative : Bool) : List Lexeme → Bool
  | [] => false
  | piece :: pieces => clash v negative (piece :: pieces) || clashes v negative pieces

theorem clashes_append {negative : Bool} {first second : List Lexeme}
    (clear : clashes v negative (first ++ second) = false) : clashes v negative second = false := by
  induction first with
  | nil => exact clear
  | cons piece first ih =>
    rw [List.cons_append, clashes, Bool.or_eq_false_iff] at clear
    exact ih clear.2

section

variable {negative : Bool} {token : Token} {tokens : List Token} {rest white : List Char}

theorem clear_of_fits (fits : Fits (token :: tokens) rest)
    (clear : clashes v negative (lexemes (textOf (token :: tokens) ++ rest)) = false) :
    clash v negative (token.part.lexeme :: lexemes (textOf tokens ++ rest)) = false ∧
      clashes v negative (lexemes (textOf tokens ++ rest)) = false := by
  rw [fits.lexemes] at clear
  have behind := clashes_append clear
  rwa [clashes, Bool.or_eq_false_iff] at behind

theorem lexeme_of_ne_pi {word : List Char} (notPi : word ≠ ['π']) :
    (Part.name word).lexeme = .word word := if_neg notPi

/-- No function that is called has the name of the variable. -/
theorem noCall_of_clear (notPi : v ≠ ['π']) (fits : Fits tokens rest)
    (clear : clashes v negative (lexemes (textOf tokens ++ rest)) = false) :
    ∀ token ∈ tokens, token.part ≠ .function v := by
  induction tokens with
  | nil => simp
  | cons token tokens ih =>
    obtain ⟨clearHere, clearBehind⟩ := clear_of_fits fits clear
    obtain ⟨-, fitsPart, fitsTokens⟩ := fits
    intro other member
    rcases List.mem_cons.1 member with rfl | member
    · intro called
      rw [called] at fitsPart clearHere
      obtain ⟨-, inside, opened⟩ := fitsPart
      rw [opened, lexemes_other (by decide) (by decide)] at clearHere
      simp [clash, Part.lexeme, notPi] at clearHere
    · exact ih fitsTokens clearBehind other member

/-! ## The front of a text -/

/-- A symbol at the front of a text is the first token. -/
theorem Fits.front_symbol {c : Char} (fits : Fits tokens white) (isWhite : IsWhite white)
    (split : textOf tokens ++ white = c :: rest) (symbol : isSymbol c = true) :
    ∃ more, tokens = ⟨[], .symbol c⟩ :: more ∧ rest = textOf more ++ white := by
  have first : Formula.lexemes (textOf tokens ++ white) = .other c :: Formula.lexemes rest := by
    rw [split, lexemes_symbol symbol]
  obtain ⟨more, rfl, -⟩ := fits.front_of_symbol isWhite symbol first
  rw [textOf_symbol, List.nil_append] at split
  exact ⟨more, rfl, (List.cons.inj split).2.symm⟩

/-- A letter at the front of a text belongs to a word, and that is the first token. -/
theorem Fits.front_word {c : Char} (fits : Fits tokens white) (isWhite : IsWhite white)
    (split : textOf tokens ++ white = c :: rest) (letter : isWordStart c = true) :
    ∃ part parts more, tokens = ⟨[], part⟩ :: more ∧
      (part = .name (c :: parts) ∨ part = .function (c :: parts)) ∧ part.text = c :: parts ∧
      part.lexeme = .word (c :: parts) ∧ (∀ d ∈ parts, isWordPart d = true) ∧
      rest = parts ++ (textOf more ++ white) ∧ Avoids isWordPart (textOf more ++ white) ∧
      Fits more white := by
  have first : Formula.lexemes (textOf tokens ++ white) =
      .word (c :: rest.takeWhile isWordPart) :: Formula.lexemes (rest.dropWhile isWordPart) := by
    rw [split, Formula.lexemes, if_pos letter]
  obtain ⟨more, shape, fitsMore, -⟩ := fits.front_of_word isWhite first
  have whole : rest.takeWhile isWordPart ++ (textOf more ++ white) = rest := by
    rcases shape with rfl | ⟨rfl, -⟩ <;> simpa [Token.text, Part.text] using split
  have behind : rest.dropWhile isWordPart = textOf more ++ white :=
    List.append_cancel_left (List.takeWhile_append_dropWhile.trans whole.symm)
  have noWord : Avoids isWordPart (textOf more ++ white) := by
    rw [← behind]
    exact avoids_dropWhile
  have all : ∀ d ∈ rest.takeWhile isWordPart, isWordPart d = true := fun _ => List.mem_takeWhile_imp
  have notPi : c :: rest.takeWhile isWordPart ≠ ['π'] := by
    intro same
    rw [(List.cons.inj same).1] at letter
    cases letter
  rcases shape with rfl | ⟨rfl, -⟩
  · exact ⟨_, _, more, rfl, .inl rfl, rfl, if_neg notPi, all, whole.symm, noWord, fitsMore⟩
  · exact ⟨_, _, more, rfl, .inr rfl, rfl, if_neg notPi, all, whole.symm, noWord, fitsMore⟩

/-- The first character of a text stays, unless the variable is at its very front. -/
theorem head?_plugTokens (fits : Fits tokens white) (previous : Option Char) :
    (∃ more, tokens = ⟨[], .name v⟩ :: more) ∨
      (textOf (plugTokens v n previous tokens)).head? = (textOf tokens).head? := by
  cases tokens with
  | nil => exact .inr rfl
  | cons token tokens =>
    obtain ⟨blanks, part⟩ := token
    obtain ⟨-, fitsPart, -⟩ := fits
    by_cases same : part = .name v
    · subst same
      cases blanks with
      | nil => exact .inl ⟨tokens, rfl⟩
      | cons b blanks =>
        right
        simp [plugTokens, Token.plug_variable, Numeral.textOf_tokens, Token.text]
    · right
      rw [plugTokens, Token.plug_of_ne same]
      cases front : Token.text ⟨blanks, part⟩ with
      | nil => exact absurd (List.append_eq_nil_iff.1 front).2 fitsPart.text_ne_nil
      | cons c others => simp [front]

theorem head?_plugTokens_append (fits : Fits tokens white)
    (other : ¬ ∃ more, tokens = ⟨[], .name v⟩ :: more) (previous : Option Char) :
    (textOf (plugTokens v n previous tokens) ++ white).head? = (textOf tokens ++ white).head? := by
  rw [List.head?_append, List.head?_append, (head?_plugTokens fits previous).resolve_left other]

/-! ## Exponents -/

theorem not_variable_of_avoids (isName : IsName v) (notPi : v ≠ ['π'])
    (avoids : Avoids isWordPart (textOf tokens ++ white)) :
    ¬ ∃ more, tokens = ⟨[], .name v⟩ :: more := by
  rintro ⟨more, rfl⟩
  cases isName with
  | pi => exact notPi rfl
  | word start =>
    have other := avoids_cons.1 avoids
    rw [← Bool.not_eq_true, isWordPart_iff] at other
    exact other (.inl start)

/-- A sign and the number behind it are no exponent. -/
theorem avoids_splitSign_plugTokens {digits : List Char} {mark : Char} (isName : IsName v)
    (notPi : v ≠ ['π']) (fits : Fits tokens white) (isWhite : IsWhite white)
    (all : ∀ c ∈ digits, isNumeralPart c = true) (isMark : isExponentMark mark = true)
    (other : [mark] ≠ v)
    (clear : clash v n.negative
      (.numeral digits :: .word [mark] :: lexemes (textOf tokens ++ white)) = false)
    (noWord : Avoids isWordPart (textOf tokens ++ white))
    (absent : Avoids Char.isDigit (splitSign (textOf tokens ++ white)).2)
    (previous : Option Char) :
    Avoids Char.isDigit (splitSign (textOf (plugTokens v n previous tokens) ++ white)).2 := by
  have front := head?_plugTokens_append (n := n) fits
    (not_variable_of_avoids isName notPi noWord) previous
  have noDigit : Avoids Char.isDigit (textOf tokens ++ white) :=
    noWord.mono fun c digit => isWordPart_iff.2 (.inr (isDigit_iff.1 digit))
  rcases avoids_or_exists_cons (fun c => c == '+' || c == '-') (textOf tokens ++ white) with
    noSign | ⟨sign, text, split, isSign⟩
  · exact avoids_splitSign (noDigit.congr front) (noSign.congr front)
  · have symbol : isSymbol sign = true := by
      rw [Bool.or_eq_true, beq_iff_eq, beq_iff_eq] at isSign
      rcases isSign with rfl | rfl <;> rfl
    obtain ⟨more, rfl, rfl⟩ := fits.front_symbol isWhite split symbol
    obtain ⟨-, -, fitsMore⟩ := fits
    have behind (text : List Char) : (splitSign (sign :: text)).2 = text := by
      simp [splitSign, isSign]
    rw [split, behind] at absent
    rw [plugTokens, Token.plug_of_ne (by simp), List.singleton_append, textOf_symbol,
      List.nil_append, behind]
    -- Only a number directly behind the sign can add digits to it.
    by_cases direct : ∃ others, more = ⟨[], .name v⟩ :: others
    · obtain ⟨others, rfl⟩ := direct
      cases negative : n.negative with
      | true =>
        rw [plugTokens, Token.plug_variable, textOf_append, Numeral.textOf_tokens,
          insertion_of_negative negative]
        exact avoids_cons.2 rfl
      | false =>
        have digitsOnly : digits.all isNumeralPart = true := List.all_eq_true.2 all
        rw [split, lexemes_symbol symbol, fitsMore.lexemes, List.map_nil, List.nil_append,
          lexeme_of_ne_pi notPi, clash, negative, digitsOnly, isMark, isSign] at clear
        simp [other] at clear
    · exact absent.congr (head?_plugTokens_append fitsMore direct _)

/-- No exponent is completed by a number in place of the variable. -/
theorem splitExponent_plugTokens {digits : List Char} (isName : IsName v) (notPi : v ≠ ['π'])
    (fits : Fits tokens white) (isWhite : IsWhite white)
    (noCall : ∀ token ∈ tokens, token.part ≠ .function v)
    (all : ∀ c ∈ digits, isNumeralPart c = true)
    (clear : clash v n.negative (.numeral digits :: lexemes (textOf tokens ++ white)) = false)
    (absent : (splitExponent (textOf tokens ++ white)).1 = [])
    (other : ¬ ∃ more, tokens = ⟨[], .name v⟩ :: more) (previous : Option Char) :
    (splitExponent (textOf (plugTokens v n previous tokens) ++ white)).1 = [] := by
  have front := head?_plugTokens_append (n := n) fits other previous
  rcases avoids_or_exists_cons isExponentMark (textOf tokens ++ white) with
    avoids | ⟨mark, text, split, isMark⟩
  · exact splitExponent_eq_nil (avoids.congr front)
  · have letter : isWordStart mark = true := by
      have code := isExponentMark_iff.1 isMark
      rw [isWordStart_iff]
      omega
    rw [split, splitExponent_cons isMark] at absent
    obtain ⟨part, parts, more, rfl, kind, text, lexeme, word, rfl, noWord, fitsMore⟩ :=
      fits.front_word isWhite split letter
    have different : mark :: parts ≠ v := by
      intro same
      rcases kind with name | function
      · exact other ⟨more, by rw [name, same]⟩
      · exact noCall _ List.mem_cons_self (by rw [function, same])
    have known : Token.plug v n previous ⟨[], part⟩ = [⟨[], part⟩] := by
      apply Token.plug_of_ne
      rcases kind with rfl | rfl
      · simpa using different
      · simp
    rw [plugTokens, known, List.singleton_append, textOf_cons, Token.text, List.nil_append, text,
      List.append_assoc, List.cons_append, splitExponent_cons isMark]
    cases parts with
    | cons d parts =>
      -- The second letter of the name decides alone, and it stays.
      have noSign : (d == '+' || d == '-') = false := by
        have code := word d List.mem_cons_self
        rw [isWordPart_iff, isWordStart_iff] at code
        simp only [Bool.or_eq_false_iff, beq_eq_false_iff_ne, ne_eq, eq_iff_toNat_eq]
        have plus : '+'.toNat = 43 := rfl
        have minus : '-'.toNat = 45 := rfl
        omega
      rw [List.cons_append] at absent ⊢
      simp only [splitSign, noSign, Bool.false_eq_true, if_false, avoids_cons] at absent ⊢
      exact absent
    | nil =>
      rw [fits.lexemes, lexeme] at clear
      exact avoids_splitSign_plugTokens isName notPi fitsMore isWhite all isMark different clear
        noWord absent _

/-! ## The tokens fit again -/

theorem Numeral.fits_tokens (n : Numeral) {blanks : List Char}
    (blank : ∀ b ∈ blanks, isBlank b = true) (noNumeral : Avoids isNumeralPart rest)
    (noMark : Avoids isExponentMark rest) (previous : Option Char) :
    Fits (n.tokens blanks previous) rest := by
  have closed (tokens : List Token) : (Part.literal n.digits []).Fits
      (textOf (⟨[], .symbol ')'⟩ :: tokens) ++ rest) := by
    rw [textOf_symbol]
    exact ⟨n.isMantissa, .none, avoids_cons.2 rfl, fun _ => rfl⟩
  rw [tokens]
  split
  · exact ⟨blank, rfl, by simp, rfl, by simp, closed [], by simp, rfl, trivial⟩
  · split
    · exact ⟨blank, rfl, by simp, closed [], by simp, rfl, trivial⟩
    · exact ⟨blank, ⟨n.isMantissa, .none, noNumeral, fun _ => splitExponent_eq_nil noMark⟩, trivial⟩

/-- What an operand ends with. -/
def Part.Ends : Part → Prop
  | .function _ => False
  | .symbol c => c = ')'
  | _ => True

/-- No name stands directly before the variable: a word would go on with it, and the letter π is a
clash. -/
theorem not_name_before_variable {word : List Char} {more : List Token} (isName : IsName v)
    (notPi : v ≠ ['π']) (fits : (Part.name word).Fits (textOf (⟨[], .name v⟩ :: more) ++ white))
    (fitsTokens : Fits (⟨[], .name v⟩ :: more) white)
    (clear : clash v negative
      ((Part.name word).lexeme :: lexemes (textOf (⟨[], .name v⟩ :: more) ++ white)) = false) :
    False := by
  obtain ⟨-, pi | noWord, -⟩ := fits
  · subst pi
    rw [fitsTokens.lexemes, List.map_nil, List.nil_append, lexeme_of_ne_pi notPi] at clear
    simp [clash, Part.lexeme] at clear
  · exact not_variable_of_avoids isName notPi noWord ⟨more, rfl⟩

/-- What is written for the variable directly behind an operand is in parentheses. -/
theorem plugTokens_behind_operand {more : List Token} (isName : IsName v) (notPi : v ≠ ['π'])
    (token : Token) (ends : token.part.Ends)
    (fits : token.part.Fits (textOf (⟨[], .name v⟩ :: more) ++ white))
    (fitsTokens : Fits (⟨[], .name v⟩ :: more) white)
    (clear : clash v negative
      (token.part.lexeme :: lexemes (textOf (⟨[], .name v⟩ :: more) ++ white)) = false)
    (previous : Option Char) :
    ∃ inside, textOf (plugTokens v n (after previous [token]) (⟨[], .name v⟩ :: more)) =
      '(' :: inside := by
  obtain ⟨blanks, part⟩ := token
  obtain ⟨d, last, operand⟩ : ∃ d, part.text.getLast? = some d ∧ endsOperand d = true := by
    cases part with
    | literal mantissa exponent => exact exists_last_of_digits fits.2.1 fits.1.ne_nil fits.1.all
    | symbol c =>
      obtain rfl : c = ')' := ends
      exact ⟨')', rfl, rfl⟩
    | function word => exact ends.elim
    | name word => exact (not_name_before_variable isName notPi fits fitsTokens clear).elim
  have behind : after previous [⟨blanks, part⟩] = some d := by
    rw [after, textOf_cons, textOf_nil, List.append_nil, Token.text, List.getLast?_append, last]
    rfl
  rw [plugTokens, Token.plug_variable, textOf_append, Numeral.textOf_tokens, behind,
    List.getLast?_nil, Option.none_or, insertion_of_endsOperand operand]
  exact ⟨_, rfl⟩

/-- A part that is not the variable still fits what is behind it. -/
theorem part_fits_plugTokens {blanks : List Char} {part : Part} (isName : IsName v)
    (notPi : v ≠ ['π']) (isWhite : IsWhite white)
    (fits : part.Fits (textOf tokens ++ white)) (fitsTokens : Fits tokens white)
    (clear : clash v n.negative (part.lexeme :: lexemes (textOf tokens ++ white)) = false)
    (noCall : ∀ token ∈ tokens, token.part ≠ .function v) (previous : Option Char) :
    part.Fits (textOf (plugTokens v n (after previous [⟨blanks, part⟩]) tokens) ++ white) := by
  by_cases direct : ∃ more, tokens = ⟨[], .name v⟩ :: more
  · obtain ⟨more, rfl⟩ := direct
    obtain ⟨c, parts, rfl, start⟩ : ∃ c parts, v = c :: parts ∧ isWordStart c = true := by
      cases isName with
      | pi => exact absurd rfl notPi
      | word start => exact ⟨_, _, rfl, start⟩
    cases part with
    | symbol => exact fits
    | literal mantissa exponent =>
      obtain ⟨inside, opened⟩ := plugTokens_behind_operand (n := n) isName notPi
        ⟨blanks, .literal mantissa exponent⟩ trivial fits fitsTokens clear previous
      obtain ⟨isMantissa, isExponent, -⟩ := fits
      rw [opened]
      exact ⟨isMantissa, isExponent, avoids_cons.2 rfl, fun _ => rfl⟩
    | function word =>
      obtain ⟨-, inside, opened⟩ := fits
      rw [(List.cons.inj opened).1] at start
      exact absurd start (by decide)
    | name word => exact (not_name_before_variable isName notPi fits fitsTokens clear).elim
  · have front := head?_plugTokens_append (n := n) fitsTokens direct
      (after previous [⟨blanks, part⟩])
    cases part with
    | symbol => exact fits
    | literal mantissa exponent =>
      obtain ⟨isMantissa, isExponent, avoids, absent⟩ := fits
      refine ⟨isMantissa, isExponent, avoids.congr front, ?_⟩
      rintro rfl
      rw [Part.lexeme, List.append_nil] at clear
      exact splitExponent_plugTokens isName notPi fitsTokens isWhite noCall isMantissa.all clear
        (absent rfl) direct _
    | function word =>
      obtain ⟨isWord, inside, opened⟩ := fits
      rw [opened, List.head?_cons, List.head?_eq_some_iff] at front
      exact ⟨isWord, front⟩
    | name word =>
      obtain ⟨isWord, ends, noNumeral, closed⟩ := fits
      exact ⟨isWord, ends.imp_right fun noWord => noWord.congr front, noNumeral.congr front,
        closed.congr front⟩

theorem fits_plug (isName : IsName v) (notPi : v ≠ ['π']) (isWhite : IsWhite white)
    (fits : Fits (token :: tokens) white)
    (clear : clash v n.negative (token.part.lexeme :: lexemes (textOf tokens ++ white)) = false)
    (noCall : ∀ token ∈ tokens, token.part ≠ .function v) (previous : Option Char) :
    Fits (token.plug v n previous)
      (textOf (plugTokens v n (after previous (token.plug v n previous)) tokens) ++ white) := by
  obtain ⟨blank, fitsPart, fitsTokens⟩ := fits
  obtain ⟨blanks, part⟩ := token
  by_cases same : part = .name v
  · subst same
    obtain ⟨-, ends, noNumeral, -⟩ := fitsPart
    have noWord := ends.resolve_left notPi
    have front := head?_plugTokens_append (n := n) fitsTokens
      (not_variable_of_avoids isName notPi noWord)
      (after previous (Token.plug v n previous ⟨blanks, .name v⟩))
    -- The variable is a word, so that no letter is behind it to begin an exponent.
    have noMark : Avoids isExponentMark (textOf tokens ++ white) := by
      apply noWord.mono
      intro c mark
      rw [isExponentMark_iff] at mark
      rw [isWordPart_iff, isWordStart_iff]
      omega
    rw [Token.plug_variable] at front ⊢
    exact n.fits_tokens blank (noNumeral.congr front) (noMark.congr front) _
  · rw [Token.plug_of_ne same]
    refine ⟨blank, ?_, trivial⟩
    exact part_fits_plugTokens isName notPi isWhite fitsPart fitsTokens clear noCall previous

theorem fits_plugTokens (isName : IsName v) (notPi : v ≠ ['π']) (isWhite : IsWhite white)
    (fits : Fits tokens white)
    (clear : clashes v n.negative (lexemes (textOf tokens ++ white)) = false)
    (previous : Option Char) : Fits (plugTokens v n previous tokens) white := by
  induction tokens generalizing previous with
  | nil => trivial
  | cons token tokens ih =>
    obtain ⟨clearHere, clearBehind⟩ := clear_of_fits fits clear
    have fitsTokens := fits.2.2
    have noCall := noCall_of_clear notPi fitsTokens clearBehind
    exact fits_append.2 ⟨fits_plug isName notPi isWhite fits clearHere noCall previous,
      ih fitsTokens clearBehind _⟩

end

end Stepwise.Formula
