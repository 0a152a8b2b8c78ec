import Stepwise.Proofs.Formula.Plugging

/-!
# The substitution replaces whole words

Each word of a text that is the variable is replaced, and nothing else is. The numbers that are
written may go together with what stands around them, but no new word comes out of that: in the end
the variable is gone.

- `Cuts`: a text is cut into pieces, each as long as it can be, in one way
- `Lexeme.Becomes`: what is written for a piece
- `exists_completed`: where a number completes an exponent
- `notMem_lexemes_substitutePieces`: no word of what is written is the variable
-/

namespace Stepwise.Formula

variable {v value text rest digits word : List Char} {c : Char} {pieces : List Lexeme}

/-! ## Cutting a text -/

/-- A text is cut into words, numbers with their exponents, and single characters. A word and the
digits of a number go on as far as they can, and so does an exponent. -/
inductive Cuts : List Char → List Lexeme → Prop where
  | nil : Cuts [] []
  | word {c : Char} {word rest : List Char} {pieces : List Lexeme}
    (start : isWordStart c = true) (parts : ∀ d ∈ word, isWordPart d = true)
    (ends : Avoids isWordPart rest) (behind : Cuts rest pieces) :
    Cuts (c :: word ++ rest) (.word (c :: word) :: pieces)
  | numeral {digits exponent rest : List Char} {pieces : List Lexeme} (nonempty : digits ≠ [])
    (all : ∀ d ∈ digits, isNumeralPart d = true) (isExponent : IsExponent exponent)
    (ends : Avoids isNumeralPart (exponent ++ rest))
    (split : splitExponent (exponent ++ rest) = (exponent, rest)) (behind : Cuts rest pieces) :
    Cuts (digits ++ (exponent ++ rest)) (.numeral (digits ++ exponent) :: pieces)
  | other {c : Char} {rest : List Char} {pieces : List Lexeme} (noWord : isWordStart c = false)
    (noNumeral : isNumeralPart c = false) (behind : Cuts rest pieces) :
    Cuts (c :: rest) (.other c :: pieces)

theorem cuts_lexemes (text : List Char) : Cuts text (lexemes text) := by
  fun_induction lexemes text with
  | case1 => exact .nil
  | case2 c rest start ih =>
    have parts : ∀ d ∈ rest.takeWhile isWordPart, isWordPart d = true :=
      fun _ => List.mem_takeWhile_imp
    have cuts := Cuts.word start parts avoids_dropWhile ih
    rwa [List.cons_append, List.takeWhile_append_dropWhile] at cuts
  | case3 c rest noWord numeral exponent ih =>
    have whole : exponent.1 ++ exponent.2 = rest.dropWhile isNumeralPart := splitExponent_append _
    have all : ∀ d ∈ c :: rest.takeWhile isNumeralPart, isNumeralPart d = true :=
      List.forall_mem_cons.2 ⟨numeral, fun _ => List.mem_takeWhile_imp⟩
    have ends : Avoids isNumeralPart (exponent.1 ++ exponent.2) := by
      rw [whole]
      exact avoids_dropWhile
    have cuts := Cuts.numeral (by simp) all (isExponent_splitExponent _) ends (by rw [whole]) ih
    rwa [whole, List.cons_append, List.takeWhile_append_dropWhile] at cuts
  | case4 c rest noWord noNumeral ih =>
    exact .other (Bool.eq_false_of_not_eq_true noWord) (Bool.eq_false_of_not_eq_true noNumeral) ih

/-- There is one way to cut a text. -/
theorem cuts_iff : Cuts text pieces ↔ pieces = lexemes text := by
  constructor
  · intro cuts
    induction cuts with
    | nil => simp [lexemes]
    | word start parts ends _ ih => rw [lexemes_word start parts ends, ← ih]
    | numeral nonempty all _ ends split _ ih => rw [lexemes_digits nonempty all ends, split, ← ih]
    | other noWord noNumeral _ ih => rw [lexemes_other noWord noNumeral, ← ih]
  · rintro rfl
    exact cuts_lexemes text

/-- A word is at the front of a text that begins with a letter. -/
theorem Cuts.not_avoids (cuts : Cuts text (.word word :: pieces)) : ¬ Avoids isWordPart text := by
  cases cuts with
  | word start =>
    intro avoids
    rw [List.cons_append, avoids_cons, ← Bool.not_eq_true, isWordPart_iff] at avoids
    exact avoids (.inl start)

/-- A sign at the front of a text is a piece of its own. -/
theorem Cuts.exists_of_symbol (cuts : Cuts (c :: rest) pieces) (symbol : isSymbol c = true) :
    ∃ behind, pieces = .other c :: behind ∧ Cuts rest behind := by
  have code := isSymbol_iff.1 symbol
  generalize whole : c :: rest = text at cuts
  cases cuts with
  | nil => cases whole
  | word start =>
    cases whole
    rw [isWordStart_iff] at start
    omega
  | @numeral digits _ _ _ nonempty all =>
    cases digits with
    | nil => exact absurd rfl nonempty
    | cons d digits =>
      cases whole
      have numeral := isNumeralPart_iff.1 (all c List.mem_cons_self)
      omega
  | other _ _ behind =>
    cases whole
    exact ⟨_, rfl, behind⟩

/-! ## What is written for a piece -/

/-- A value stands for each word that is the variable, in parentheses or not. Everything else is
written as it is. -/
def Lexeme.Becomes (v value : List Char) (piece : Lexeme) (written : List Char) : Prop :=
  if piece = .word v then written = value ∨ written = '(' :: value ++ [')']
  else written = piece.text

theorem replacement_numeral (v value : List Char) (previous : Option Char) (digits : List Char) :
    replacement v value previous (.numeral digits) = digits := rfl

theorem replacement_other (v value : List Char) (previous : Option Char) (c : Char) :
    replacement v value previous (.other c) = [c] := rfl

theorem becomes_replacement (v value : List Char) (previous : Option Char) (piece : Lexeme) :
    piece.Becomes v value (replacement v value previous piece) := by
  rw [Lexeme.Becomes]
  split
  next same =>
    rw [same, replacement, if_pos rfl, insertion]
    split
    · exact .inr rfl
    · exact .inl rfl
  next other =>
    cases piece with
    | word word => exact if_neg fun same => other (by rw [same])
    | numeral | other => rfl

theorem exists_becomes (v value : List Char) (previous : Option Char) (pieces : List Lexeme) :
    ∃ written, List.Forall₂ (Lexeme.Becomes v value) pieces written ∧
      substitutePieces v value previous pieces = written.flatten := by
  induction pieces generalizing previous with
  | nil => exact ⟨[], .nil, rfl⟩
  | cons piece pieces ih =>
    obtain ⟨written, becomes, same⟩ :=
      ih ((replacement v value previous piece).getLast?.or previous)
    exact ⟨_ :: written, .cons (becomes_replacement v value previous piece) becomes, by
      rw [substitutePieces, same, List.flatten_cons]⟩

/-- Where no word is the variable, nothing changes. -/
theorem substitutePieces_of_notMem (absent : .word v ∉ pieces) (previous : Option Char) :
    substitutePieces v value previous pieces = pieces.flatMap Lexeme.text := by
  induction pieces generalizing previous with
  | nil => rfl
  | cons piece pieces ih =>
    rw [List.mem_cons, not_or] at absent
    have here := becomes_replacement v value previous piece
    rw [Lexeme.Becomes, if_neg (Ne.symm absent.1)] at here
    rw [substitutePieces, here, ih absent.2, List.flatMap_cons]

/-! ## The first character -/

/-- What is written begins as the text does, unless the variable is at the front. -/
theorem head?_substitutePieces (v value : List Char) (cuts : Cuts text pieces)
    (previous : Option Char) :
    (∃ behind, pieces = .word v :: behind) ∨
      (substitutePieces v value previous pieces).head? = text.head? := by
  cases cuts with
  | nil => exact .inr rfl
  | @word c word rest pieces =>
    by_cases same : c :: word = v
    · exact .inl ⟨pieces, by rw [same]⟩
    · right
      rw [substitutePieces, replacement, if_neg same]
      rfl
  | @numeral digits exponent rest pieces nonempty =>
    right
    rw [substitutePieces, replacement_numeral, List.append_assoc,
      List.head?_append_of_ne_nil _ nonempty, List.head?_append_of_ne_nil _ nonempty]
  | other => exact .inr rfl

theorem head?_of_avoids (v value : List Char) (cuts : Cuts text pieces)
    (noWord : Avoids isWordPart text) (previous : Option Char) :
    (substitutePieces v value previous pieces).head? = text.head? := by
  obtain ⟨behind, rfl⟩ | same := head?_substitutePieces v value cuts previous
  · exact absurd noWord cuts.not_avoids
  · exact same

theorem avoids_isDigit (noWord : Avoids isWordPart text) : Avoids Char.isDigit text :=
  noWord.mono fun _ digit => isWordPart_iff.2 (.inr (isDigit_iff.1 digit))

theorem dropWhile_append_avoids {kind : Char → Bool} (avoids : Avoids kind rest) :
    (text ++ rest).dropWhile kind = text.dropWhile kind ++ rest := by
  rw [List.dropWhile_append]
  split
  next none =>
    have stays : ([] ++ rest).dropWhile kind = rest := dropWhile_append_of_avoids (by simp) avoids
    rwa [List.isEmpty_iff.1 none]
  next => rfl

/-- Behind an operand the value is in parentheses. -/
theorem avoids_behind_operand {kind : Char → Bool} (v value : List Char) (cuts : Cuts text pieces)
    (avoids : Avoids kind text) (closed : kind '(' = false) (operand : endsOperand c = true) :
    Avoids kind (substitutePieces v value (some c) pieces) := by
  obtain ⟨behind, rfl⟩ | same := head?_substitutePieces v value cuts (some c)
  · rw [substitutePieces, replacement, if_pos rfl, insertion_of_endsOperand operand]
    exact avoids_cons.2 closed
  · exact avoids.congr same

/-! ## Numbers -/

/-- A number as text: digits and points, perhaps with a minus sign before them. -/
def IsNumberText (value : List Char) : Prop :=
  ∃ digits, (∀ d ∈ digits, isNumeralPart d = true) ∧ (value = digits ∨ value = '-' :: digits)

/-- Outside of parentheses there is no sign. -/
theorem insertion_cases (number : IsNumberText value) (previous : Option Char) :
    insertion value previous = '(' :: value ++ [')'] ∨
      insertion value previous = value ∧ ∀ d ∈ value, isNumeralPart d = true := by
  obtain ⟨digits, all, shape⟩ := number
  rw [insertion]
  split
  next => exact .inl rfl
  next outside =>
    rcases shape with rfl | rfl
    · exact .inr ⟨rfl, all⟩
    · simp at outside

theorem splitExponent_of_avoids (noWord : Avoids isWordPart text) :
    splitExponent text = ([], text) := by
  have none : (splitExponent text).1 = [] := splitExponent_eq_nil (noWord.mono fun d mark => by
    rw [isExponentMark_iff] at mark
    rw [isWordPart_iff, isWordStart_iff]
    omega)
  have whole := splitExponent_append text
  rw [none, List.nil_append] at whole
  exact Prod.ext none whole

theorem word_mem_cons_numeral :
    .word word ∈ .numeral digits :: pieces ↔ .word word ∈ pieces := by simp

theorem word_mem_cons_other : .word word ∈ .other c :: pieces ↔ .word word ∈ pieces := by simp

theorem mem_lexemes_symbol (symbol : isSymbol c = true) :
    .word word ∈ lexemes (c :: rest) ↔ .word word ∈ lexemes rest := by
  rw [lexemes_symbol symbol, word_mem_cons_other]

/-- Digits and points in front of a text do not change its words, unless a letter is next to them. -/
theorem mem_lexemes_digits (all : ∀ d ∈ digits, isNumeralPart d = true)
    (noWord : Avoids isWordPart rest) :
    .word word ∈ lexemes (digits ++ rest) ↔ .word word ∈ lexemes rest := by
  cases digits with
  | nil => rfl
  | cons d digits =>
    -- They go together with the digits at the front of the text.
    have parts : rest.takeWhile isNumeralPart ++ rest.dropWhile isNumeralPart = rest :=
      List.takeWhile_append_dropWhile
    have digitsAll : ∀ e ∈ d :: digits ++ rest.takeWhile isNumeralPart,
        isNumeralPart e = true := by
      intro e member
      rcases List.mem_append.1 member with member | member
      · exact all e member
      · exact List.mem_takeWhile_imp member
    have stops : Avoids isNumeralPart (rest.dropWhile isNumeralPart) := avoids_dropWhile
    have fused := lexemes_digits (by simp) digitsAll stops
    rw [List.append_assoc, parts] at fused
    rw [fused, word_mem_cons_numeral]
    by_cases front : rest.takeWhile isNumeralPart = []
    · rw [dropWhile_eq_self_of_takeWhile front, splitExponent_of_avoids noWord]
    · have alone := lexemes_digits front (fun _ => List.mem_takeWhile_imp) stops
      rw [parts] at alone
      rw [alone, word_mem_cons_numeral]

/-- The value itself has no words. -/
theorem mem_lexemes_insertion (number : IsNumberText value) (previous : Option Char)
    (noWord : Avoids isWordPart rest) :
    .word word ∈ lexemes (insertion value previous ++ rest) ↔ .word word ∈ lexemes rest := by
  obtain inside | ⟨bare, all⟩ := insertion_cases number previous
  · obtain ⟨digits, all, shape⟩ := number
    have closed : Avoids isWordPart (')' :: rest) := avoids_cons.2 rfl
    rw [inside, List.append_assoc, List.cons_append, List.singleton_append, mem_lexemes_symbol rfl]
    rcases shape with rfl | rfl
    · rw [mem_lexemes_digits all closed, mem_lexemes_symbol rfl]
    · rw [List.cons_append, mem_lexemes_symbol rfl, mem_lexemes_digits all closed,
        mem_lexemes_symbol rfl]
  · rw [bare]
    exact mem_lexemes_digits all noWord

/-! ## Exponents -/

theorem isSymbol_of_sign {sign : Char} (isSign : (sign == '+' || sign == '-') = true) :
    isSymbol sign = true := by
  rw [Bool.or_eq_true, beq_iff_eq, beq_iff_eq] at isSign
  rcases isSign with rfl | rfl <;> rfl

theorem splitSign_cons {sign : Char} (isSign : (sign == '+' || sign == '-') = true)
    (text : List Char) : splitSign (sign :: text) = ([sign], text) := if_pos isSign

theorem not_sign_of_isWordPart (part : isWordPart c = true) :
    (c == '+' || c == '-') = false := by
  rw [isWordPart_iff, isWordStart_iff] at part
  have plus : '+'.toNat = 43 := rfl
  have minus : '-'.toNat = 45 := rfl
  simp only [Bool.or_eq_false_iff, beq_eq_false_iff_ne, ne_eq, eq_iff_toNat_eq]
  omega

theorem splitSign_of_not_sign (noSign : (c == '+' || c == '-') = false) (text : List Char) :
    splitSign (c :: text) = ([], c :: text) := by
  rw [splitSign, if_neg (by simp [noSign])]

/-- A letter that announces no exponent in the text announces one in what is written only if a sign
and the variable are behind it. -/
theorem exists_completed (cuts : Cuts text pieces) (ends : Avoids isNumeralPart text)
    (absent : (splitExponent text).1 = []) (operand : endsOperand c = true)
    (completed : (splitExponent (substitutePieces v value (some c) pieces)).1 ≠ []) :
    ∃ mark sign behind rest, pieces = .word [mark] :: .other sign :: .word v :: behind ∧
      isExponentMark mark = true ∧ (sign == '+' || sign == '-') = true ∧ [mark] ≠ v ∧
      Avoids isWordPart rest ∧ Cuts rest behind := by
  cases cuts with
  | nil => exact absurd rfl completed
  | @numeral digits _ _ _ nonempty all =>
    -- Digits would still belong to the number before.
    cases digits with
    | nil => exact absurd rfl nonempty
    | cons d digits =>
      rw [List.cons_append, avoids_cons, all d List.mem_cons_self] at ends
      cases ends
  | @other d rest pieces noWord =>
    refine absurd (splitExponent_eq_nil (avoids_cons.2 ?_)) completed
    rw [← Bool.not_eq_true, isWordStart_iff] at noWord
    rw [← Bool.not_eq_true, isExponentMark_iff]
    omega
  | @word mark word rest pieces start parts noWord behind =>
    have different : mark :: word ≠ v := by
      -- The variable would be in parentheses here.
      rintro rfl
      rw [substitutePieces, replacement, if_pos rfl, insertion_of_endsOperand operand] at completed
      exact completed (splitExponent_eq_nil (avoids_cons.2 rfl))
    rw [substitutePieces, replacement, if_neg different] at completed
    have isMark : isExponentMark mark = true := by
      by_contra noMark
      exact completed (splitExponent_eq_nil (avoids_cons.2 (Bool.eq_false_of_not_eq_true noMark)))
    rw [List.cons_append, splitExponent_cons isMark] at absent
    rw [List.cons_append, Ne, splitExponent_cons isMark] at completed
    cases word with
    | cons d word =>
      -- The second letter of the word decides alone, and it stays.
      have noSign := not_sign_of_isWordPart (parts d List.mem_cons_self)
      rw [List.cons_append, splitSign_of_not_sign noSign, avoids_cons] at absent completed
      exact absurd absent completed
    | nil =>
      rw [List.nil_append] at absent completed
      rcases avoids_or_exists_cons (fun s => s == '+' || s == '-') rest with
        noSign | ⟨sign, rest, rfl, isSign⟩
      · have front := head?_of_avoids v value behind noWord ([mark].getLast?.or (some c))
        exact absurd (avoids_splitSign ((avoids_isDigit noWord).congr front) (noSign.congr front))
          completed
      · obtain ⟨others, rfl, cuts⟩ := behind.exists_of_symbol (isSymbol_of_sign isSign)
        rw [substitutePieces, replacement_other, List.singleton_append,
          splitSign_cons isSign] at completed
        rw [splitSign_cons isSign] at absent
        -- A digit can only come behind the sign if the variable was there.
        obtain ⟨others, rfl⟩ | front := head?_substitutePieces v value cuts (some sign)
        · cases cuts with
          | word _ _ noWord' cuts' =>
            exact ⟨mark, sign, others, _, rfl, isMark, isSign, different, noWord', cuts'⟩
        · exact absurd (absent.congr front) completed

/-- An exponent takes all digits. -/
theorem avoids_of_splitExponent (found : (splitExponent text).1 ≠ []) :
    Avoids Char.isDigit (splitExponent text).2 := by
  cases text with
  | nil => exact absurd rfl found
  | cons mark text =>
    simp only [splitExponent] at found ⊢
    split at found
    next some =>
      rw [if_pos some]
      exact avoids_dropWhile
    next => exact absurd rfl found

theorem splitExponent_sign {mark sign : Char} (isSign : (sign == '+' || sign == '-') = true)
    (found : (splitExponent (mark :: sign :: text)).1 ≠ []) :
    (splitExponent (mark :: sign :: text)).2 = text.dropWhile Char.isDigit := by
  simp only [splitExponent, splitSign_cons isSign] at found ⊢
  split at found
  next some => rw [if_pos some]
  next => exact absurd rfl found

/-- Behind a sign the digits of a number are taken into the exponent, and the words stay. -/
theorem mem_lexemes_of_sign {mark sign : Char} (number : IsNumberText value)
    (isMark : isExponentMark mark = true) (isSign : (sign == '+' || sign == '-') = true)
    (noWord : Avoids isWordPart rest)
    (found : (splitExponent (mark :: sign :: (insertion value (some sign) ++ rest))).1 ≠ [])
    (member : .word word ∈
      lexemes (splitExponent (mark :: sign :: (insertion value (some sign) ++ rest))).2) :
    .word word ∈ lexemes (mark :: sign :: (insertion value (some sign) ++ rest)) := by
  obtain opened | ⟨bare, all⟩ := insertion_cases number (some sign)
  · rw [opened, Ne, splitExponent_cons isMark, splitSign_cons isSign] at found
    exact absurd (avoids_cons.2 rfl) found
  · rw [splitExponent_sign isSign found, bare] at member
    have all' : ∀ d ∈ value.dropWhile Char.isDigit, isNumeralPart d = true :=
      fun d member => all d ((List.dropWhile_sublist _).subset member)
    rw [dropWhile_append_avoids (avoids_isDigit noWord), mem_lexemes_digits all' noWord, ← mem_lexemes_digits all noWord] at member
    have start : isWordStart mark = true := by
      have code := isExponentMark_iff.1 isMark
      rw [isWordStart_iff]
      omega
    have ends : Avoids isWordPart (sign :: (value ++ rest)) := by
      have code := isSymbol_iff.1 (isSymbol_of_sign isSign)
      rw [avoids_cons, ← Bool.not_eq_true, isWordPart_iff, isWordStart_iff]
      omega
    have alone : lexemes ([mark] ++ sign :: (value ++ rest)) =
        .word [mark] :: lexemes (sign :: (value ++ rest)) := lexemes_word start (by simp) ends
    rw [List.singleton_append] at alone
    rw [bare, alone, List.mem_cons, mem_lexemes_symbol (isSymbol_of_sign isSign)]
    exact .inr member

/-- What is behind an exponent that a number has completed has no new words. -/
theorem mem_lexemes_of_completed (number : IsNumberText value) (cuts : Cuts text pieces)
    (ends : Avoids isNumeralPart text) (absent : (splitExponent text).1 = [])
    (operand : endsOperand c = true)
    (member : .word word ∈ lexemes (splitExponent (substitutePieces v value (some c) pieces)).2) :
    .word word ∈ lexemes (substitutePieces v value (some c) pieces) := by
  by_cases completed : (splitExponent (substitutePieces v value (some c) pieces)).1 = []
  · have whole := splitExponent_append (substitutePieces v value (some c) pieces)
    rw [completed, List.nil_append] at whole
    rwa [whole] at member
  · obtain ⟨mark, sign, behind, rest, rfl, isMark, isSign, different, noWord, cuts'⟩ :=
      exists_completed cuts ends absent operand completed
    have written : substitutePieces v value (some c)
        (.word [mark] :: .other sign :: .word v :: behind) =
          mark :: sign :: (insertion value (some sign) ++
            substitutePieces v value ((insertion value (some sign)).getLast?.or (some sign))
              behind) := by
      simp [substitutePieces, replacement, Lexeme.text, different]
    rw [written] at member completed ⊢
    exact mem_lexemes_of_sign number isMark isSign
      (noWord.congr (head?_of_avoids v value cuts' noWord _)) completed member

/-! ## Whole texts -/

/-- Piece by piece no word that is written is the variable. A value may go together with digits
around it, but behind an operand it is in parentheses, so that it makes no word longer. -/
theorem notMem_lexemes_substitutePieces (number : IsNumberText value) (cuts : Cuts text pieces)
    (previous : Option Char) : .word v ∉ lexemes (substitutePieces v value previous pieces) := by
  induction cuts generalizing previous with
  | nil => simp [substitutePieces, lexemes]
  | @word c word rest pieces start parts noWord behind ih =>
    -- No letter or digit comes behind the word that was not there.
    have noWord' (previous : Option Char) :
        Avoids isWordPart (substitutePieces v value previous pieces) :=
      noWord.congr (head?_of_avoids v value behind noWord previous)
    by_cases same : c :: word = v
    · rw [substitutePieces, replacement, if_pos same, mem_lexemes_insertion number _ (noWord' _)]
      exact ih _
    · rw [substitutePieces, replacement, if_neg same, lexemes_word start parts (noWord' _),
        List.mem_cons, not_or]
      exact ⟨by simpa using Ne.symm same, ih _⟩
  | @numeral digits exponent rest pieces nonempty all isExponent ends split behind ih =>
    obtain ⟨last, isLast, operand⟩ := exists_last_of_digits isExponent nonempty all
    rw [substitutePieces, replacement_numeral, isLast, Option.some_or, List.append_assoc]
    by_cases bare : exponent = []
    · subst bare
      rw [List.nil_append] at ends split
      -- The digits end where they did, but the mark behind them may have become an exponent.
      rw [List.nil_append, lexemes_digits nonempty all
        (avoids_behind_operand v value behind ends rfl operand), word_mem_cons_numeral]
      intro member
      exact ih _ (mem_lexemes_of_completed number behind ends (by rw [split]) operand member)
    · -- The exponent ends where it did, since a value behind it is in parentheses.
      have noDigit : Avoids Char.isDigit rest := by
        have found : (splitExponent (exponent ++ rest)).1 ≠ [] := by rwa [split]
        have stops := avoids_of_splitExponent found
        rwa [split] at stops
      have whole := isExponent.splitExponent_of_ne_nil bare
        (avoids_behind_operand v value behind noDigit rfl operand)
      have ends' : Avoids isNumeralPart (exponent ++ substitutePieces v value (some last) pieces) :=
        ends.congr (by
          rw [List.head?_append_of_ne_nil _ bare, List.head?_append_of_ne_nil _ bare])
      rw [lexemes_digits nonempty all ends', whole, word_mem_cons_numeral]
      exact ih _
  | other noWord noNumeral behind ih =>
    rw [substitutePieces, replacement_other, List.singleton_append,
      lexemes_other noWord noNumeral, word_mem_cons_other]
    exact ih _

theorem notMem_lexemes_substitute {value : String} (number : IsNumberText value.toList)
    (source variableName : String) :
    .word variableName.toList ∉ lexemes (substitute source variableName value).toList := by
  rw [substitute, String.toList_ofList]
  exact notMem_lexemes_substitutePieces number (cuts_lexemes _) none

/-- A text is changed exactly if one of its words is the variable. -/
theorem substitute_eq_self_iff {value : String} (number : IsNumberText value.toList)
    (source variableName : String) : substitute source variableName value = source ↔
      .word variableName.toList ∉ lexemes source.toList := by
  constructor
  · intro same
    have absent := notMem_lexemes_substitute number source variableName
    rwa [same] at absent
  · intro absent
    rw [substitute, substitutePieces_of_notMem absent, flatMap_text_lexemes, String.ofList_toList]

/-- A number is written for each word that is the variable, in parentheses or not, and for nothing
else. If there is no such word the text stays what it is. In the text that comes out no word is the
variable, whatever the numbers stand next to, so that to substitute again changes nothing. -/
theorem substitute_replaces_words {value : String} (number : IsNumberText value.toList)
    (source variableName : String) :
    (∀ pieces, Cuts source.toList pieces ↔ pieces = lexemes source.toList) ∧
      (∃ written, List.Forall₂ (Lexeme.Becomes variableName.toList value.toList)
          (lexemes source.toList) written ∧
        (substitute source variableName value).toList = written.flatten) ∧
      (substitute source variableName value = source ↔
        .word variableName.toList ∉ lexemes source.toList) ∧
      .word variableName.toList ∉ lexemes (substitute source variableName value).toList ∧
      substitute (substitute source variableName value) variableName value =
        substitute source variableName value := by
  have absent := notMem_lexemes_substitute number source variableName
  refine ⟨fun _ => cuts_iff, ?_, substitute_eq_self_iff number source variableName, absent,
    (substitute_eq_self_iff number _ _).2 absent⟩
  obtain ⟨written, becomes, same⟩ :=
    exists_becomes variableName.toList value.toList none (lexemes source.toList)
  exact ⟨written, becomes, by rw [substitute, String.toList_ofList, same]⟩

/-- In `2e-x.5` the number goes together with the digits on both sides of it, and there is no
variable left. -/
theorem substitute_replaces_words_exponent :
    IsNumberText "1.500".toList ∧ substitute "2e-x.5" "x" "1.500" = "2e-1.500.5" ∧
      lexemes "2e-1.500.5".toList = [.numeral "2e-1".toList, .numeral ".500.5".toList] ∧
      substitute "2e-1.500.5" "x" "1.500" = "2e-1.500.5" := by
  have number : IsNumberText "1.500".toList :=
    ⟨"1.500".toList, List.all_eq_true.1 (by decide), .inl rfl⟩
  have written : substitute "2e-x.5" "x" "1.500" = "2e-1.500.5" := by decide +kernel
  obtain ⟨-, -, -, -, again⟩ := substitute_replaces_words number "2e-x.5" "x"
  rw [written] at again
  exact ⟨number, written, by decide +kernel, again⟩

end Stepwise.Formula
