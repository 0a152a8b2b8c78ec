import Stepwise.Proofs.Formula.Derivation

/-!
# What a reader returns is derived

A reader that returns a tree has found tokens that stand for it. They are told apart by themselves,
and with the text behind them too, with one reservation: a literal or a name may have been broken
off at a text that nothing in a formula can go on with. `Blocked` says so. Such a text is left over
in the end.

- `Explained`: a text begins with tokens that stand for a tree
- `explained_readSum` and its companions, one for each reader
- `Tree.derives_of_read`, `Tree.named_of_read`: a whole text
-/

namespace Stepwise.Formula

variable {text rest start : List Char}

/-! ## The meanings of symbols -/

/-- The characters with a meaning in a table are symbols, and none of them opens a parenthesis. -/
def Marks {α : Type} (table : Char → Option α) : Prop :=
  ∀ c value, table c = some value → isSymbol c = true ∧ opens c = false

theorem Marks.symbol?_eq_none {α : Type} {table : Char → Option α} {c : Char}
    (marks : Marks table) (visible : isBlank c = false)
    (other : isSymbol c = true → opens c = true) : symbol? table (c :: rest) = none := by
  change symbol? table ([] ++ c :: rest) = none
  refine symbol?_append_eq_none (by simp) visible ?_
  cases meaning : table c with
  | none => rfl
  | some value =>
    obtain ⟨symbol, closed⟩ := marks c value meaning
    rw [other symbol] at closed
    cases closed

theorem marks_sumOperator : Marks sumOperator := by
  intro c value meaning
  unfold sumOperator at meaning
  split at meaning
  · decide
  · decide
  · cases meaning

theorem marks_productOperator : Marks productOperator := by
  intro c value meaning
  unfold productOperator at meaning
  split at meaning
  · decide
  · decide
  · cases meaning

theorem marks_sign : Marks sign := by
  intro c value meaning
  unfold sign at meaning
  split at meaning
  · decide
  · decide
  · cases meaning

theorem caret_eq_some {c : Char} {u : Unit} (meaning : caret c = some u) : c = '^' := by
  unfold caret at meaning
  split at meaning
  · rfl
  · cases meaning

theorem closing_eq_some {c : Char} {u : Unit} (meaning : closing c = some u) : c = ')' := by
  unfold closing at meaning
  split at meaning
  · rfl
  · cases meaning

theorem marks_caret : Marks caret := by
  intro c u meaning
  rw [caret_eq_some meaning]
  decide

/-! ## Blocked texts -/

/-- A factor starts with a letter or a parenthesis. -/
theorem startsFactor_cons {c : Char} : startsFactor (c :: rest) = true ↔
    isWordStart c = true ∨ c.toNat = 40 ∨ c.toNat = 960 := by
  simp only [startsFactor, Bool.or_eq_true, beq_iff_eq, eq_iff_toNat_eq, or_assoc]
  exact Iff.rfl

/-- A number literal or a parenthesis without its end, where neither can be. -/
def Blocked (rest : List Char) : Prop :=
  (∃ c more, rest = c :: more ∧ isNumeralPart c = true) ∨
    ∃ inside e, rest = '(' :: inside ∧ readGroup rest = .error e

theorem Blocked.exists_cons (blocked : Blocked rest) :
    ∃ c more, rest = c :: more ∧ (isNumeralPart c = true ∨ c = '(') := by
  rcases blocked with ⟨c, more, rfl, numeral⟩ | ⟨inside, -, rfl, -⟩
  · exact ⟨c, more, rfl, .inl numeral⟩
  · exact ⟨'(', inside, rfl, .inr rfl⟩

/-- No operator is at the front of a blocked text. -/
theorem not_blocked_append {blanks : List Char} {c : Char} (blank : ∀ b ∈ blanks, isBlank b = true)
    (symbol : isSymbol c = true) (closed : opens c = false) : ¬ Blocked (blanks ++ c :: rest) := by
  intro blocked
  obtain ⟨d, more, split, kind⟩ := blocked.exists_cons
  rw [← Bool.not_eq_true, opens_iff] at closed
  rw [isNumeralPart_iff, ← beq_iff_eq (b := '('), ← opens, opens_iff] at kind
  cases blanks with
  | nil =>
    cases split
    have code := isSymbol_iff.1 symbol
    omega
  | cons b blanks =>
    cases split
    have code := isBlank_iff.1 (blank _ List.mem_cons_self)
    omega

/-- A symbol that opens no group starts no power. -/
theorem readPower_eq_error {s : Char} {failure : List Char} (start : skipBlanks text = s :: rest)
    (symbol : isSymbol s = true) (failed : readGroup (s :: rest) = .error failure) :
    readPower text = .error failure := by
  have code := isSymbol_iff.1 symbol
  have noLiteral : literal? (skipBlanks text) = none := by
    rw [start]
    apply literal?_eq_none
    rw [avoids_cons, ← Bool.not_eq_true, isNumeralPart_iff]
    omega
  have noName : name? (skipBlanks text) = none := by
    rw [start]
    apply name?_eq_none
    · rw [← Bool.not_eq_true, isWordStart_iff]
      omega
    · rintro rfl
      exact absurd symbol (by decide)
  rw [← start] at failed
  rw [readPower, readAtom, noLiteral]
  simp only [noName, failed]

/-- A factor without an operator is not at the front of a blocked text either. -/
theorem not_blocked_of_readPower {factor : Consumed Tree rest} (follows : startsFactor rest = true)
    (read : readPower rest = .ok factor) : ¬ Blocked rest := by
  rintro (⟨c, more, rfl, numeral⟩ | ⟨inside, failure, rfl, failed⟩)
  · have code := isNumeralPart_iff.1 numeral
    rw [startsFactor_cons, isWordStart_iff] at follows
    omega
  · rw [readPower_eq_error rfl rfl failed] at read
    cases read

/-! ## Explanations -/

/-- A text begins with tokens that stand for a tree, and `rest` is behind them. The tokens are told
apart by themselves, and with `rest` unless that is blocked. -/
def Explained (level : Level) (text : List Char) (tree : Tree) (rest : List Char) : Prop :=
  ∃ tokens, Derives level tokens tree ∧ text = textOf tokens ++ rest ∧ Fits tokens [] ∧
    (¬ Blocked rest → Fits tokens rest)

namespace Explained

variable {level level' : Level} {left right tree : Tree} {middle : List Char}
  {blanks closing : List Char}

theorem of_fits {tokens : List Token} (derives : Derives level tokens tree)
    (split : text = textOf tokens ++ rest) (fits : Fits tokens rest) :
    Explained level text tree rest :=
  ⟨tokens, derives, split, derives.truncates [] rest fits, fun _ => fits⟩

theorem isSuffix (explained : Explained level text tree rest) : rest <:+ text := by
  obtain ⟨tokens, -, rfl, -⟩ := explained
  exact List.suffix_append _ _

theorem lift (explained : Explained level text tree rest)
    (rule : ∀ {tokens}, Derives level tokens tree → Derives level' tokens tree) :
    Explained level' text tree rest := by
  obtain ⟨tokens, derives, split, fits⟩ := explained
  exact ⟨tokens, rule derives, split, fits⟩

theorem literal {mantissa exponent : List Char} (blank : ∀ b ∈ blanks, isBlank b = true)
    (isMantissa : IsMantissa mantissa) (isExponent : IsExponent exponent)
    (absent : exponent = [] → (splitExponent rest).1 = []) :
    Explained .atom (blanks ++ (mantissa ++ exponent ++ rest))
      (.number (literalValue (mantissa ++ exponent))) rest := by
  refine ⟨_, .literal blanks (denotes_literalValue isMantissa isExponent),
    by simp [Token.text, Part.text], ?_, ?_⟩
  · exact ⟨blank, ⟨isMantissa, isExponent, avoids_nil, fun _ => rfl⟩, trivial⟩
  · intro unblocked
    -- A second point ends a literal, and nothing can be read from there on.
    rcases avoids_or_exists_cons isNumeralPart rest with avoids | blocked
    · exact ⟨blank, ⟨isMantissa, isExponent, by simpa using avoids, by simpa using absent⟩, trivial⟩
    · exact absurd (.inl blocked) unblocked

theorem name {word failure : List Char} (blank : ∀ b ∈ blanks, isBlank b = true)
    (isName : IsName word) (ends : word = ['π'] ∨ Avoids isWordPart rest)
    (failed : readGroup rest = .error failure) :
    Explained .atom (blanks ++ (word ++ rest)) (.name (String.ofList word)) rest := by
  refine ⟨_, .name blanks word, by simp [Token.text, Part.text], ?_, ?_⟩
  · exact ⟨blank, ⟨isName, .inr avoids_nil, avoids_nil, avoids_nil⟩, trivial⟩
  · intro unblocked
    rcases avoids_or_exists_cons isNumeralPart rest with avoids | blocked
    · -- A name whose argument fails is taken for itself; its parenthesis then blocks the text.
      rcases avoids_or_exists_cons opens rest with closed | ⟨c, inside, split, opened⟩
      · exact ⟨blank, ⟨isName, ends, avoids, closed⟩, trivial⟩
      · obtain rfl : c = '(' := by simpa [opens] using opened
        exact absurd (.inr ⟨inside, failure, split, failed⟩) unblocked
    · exact absurd (.inl blocked) unblocked

/-- A sum in parentheses. -/
theorem group (blank : ∀ b ∈ blanks, isBlank b = true) (blank' : ∀ b ∈ closing, isBlank b = true)
    (inside : Explained .sum text tree (closing ++ ')' :: rest)) :
    Explained .atom (blanks ++ '(' :: text) tree rest := by
  obtain ⟨tokens, derives, rfl, -, fits⟩ := inside
  have fitsInside := fits (not_blocked_append blank' rfl rfl)
  refine of_fits (.group blanks closing derives) (by simp [Token.text, Part.text])
    ⟨blank, rfl, fits_append.2 ⟨?_, blank', rfl, trivial⟩⟩
  simpa [Token.text, Part.text] using fitsInside

theorem call {word : List Char} (blank : ∀ b ∈ blanks, isBlank b = true) (isName : IsName word)
    (blank' : ∀ b ∈ closing, isBlank b = true)
    (inside : Explained .sum text tree (closing ++ ')' :: rest)) :
    Explained .atom (blanks ++ (word ++ '(' :: text)) (.call (String.ofList word) tree) rest := by
  obtain ⟨tokens, derives, rfl, -, fits⟩ := inside
  have fitsInside := fits (not_blocked_append blank' rfl rfl)
  refine of_fits (.call blanks word closing derives) (by simp [Token.text, Part.text])
    ⟨blank, ⟨isName, _, rfl⟩, by simp, rfl, fits_append.2 ⟨?_, blank', rfl, trivial⟩⟩
  simpa [Token.text, Part.text] using fitsInside

theorem sign {c : Char} {apply : Tree → Tree} (blank : ∀ b ∈ blanks, isBlank b = true)
    (mark : sign c = some apply) (operand : Explained .signed text tree rest) :
    Explained .signed (blanks ++ c :: text) (apply tree) rest := by
  obtain ⟨tokens, derives, rfl, alone, fits⟩ := operand
  have symbol := (marks_sign c _ mark).1
  exact ⟨_, .sign blanks mark derives, by simp [Token.text, Part.text], ⟨blank, symbol, alone⟩,
    fun unblocked => ⟨blank, symbol, fits unblocked⟩⟩

/-- Two explanations with a symbol between them. -/
theorem join {first second : Level} {combine : Tree → Tree → Tree} {c : Char}
    (blank : ∀ b ∈ blanks, isBlank b = true) (symbol : isSymbol c = true ∧ opens c = false)
    (so_far : Explained first start left (blanks ++ c :: text))
    (next : Explained second text right rest)
    (rule : ∀ {tokens tokens'}, Derives first tokens left → Derives second tokens' right →
      Derives level (tokens ++ ⟨blanks, .symbol c⟩ :: tokens') (combine left right)) :
    Explained level start (combine left right) rest := by
  obtain ⟨tokens, derives, rfl, -, fits⟩ := so_far
  obtain ⟨tokens', derives', rfl, alone', fits'⟩ := next
  have before : Fits tokens (textOf (⟨blanks, .symbol c⟩ :: tokens') ++ rest) := by
    rw [textOf_symbol]
    exact fits (not_blocked_append blank symbol.1 symbol.2)
  refine ⟨_, rule derives derives', by simp [Token.text, Part.text], ?_, fun unblocked => ?_⟩
  · refine fits_append.2 ⟨?_, blank, symbol.1, alone'⟩
    rw [List.append_nil]
    exact derives.truncates _ _ before
  · exact fits_append.2 ⟨before, blank, symbol.1, fits' unblocked⟩

theorem juxtapose (so_far : Explained .product start left middle)
    (next : Explained .power middle right rest) (shorter : rest.length < middle.length)
    (follows : startsFactor middle = true) (unblocked : ¬ Blocked middle) :
    Explained .product start (.binary .multiply left right) rest := by
  obtain ⟨tokens, derives, rfl, -, fits⟩ := so_far
  obtain ⟨tokens', derives', rfl, alone', fits'⟩ := next
  have starts : startsFactor (textOf tokens') = true := by
    cases visible : textOf tokens' with
    | nil =>
      rw [visible, List.nil_append] at shorter
      exact absurd shorter (lt_irrefl _)
    | cons c more =>
      rw [visible] at follows
      exact follows
  refine ⟨_, .juxtapose derives derives' starts, by simp, ?_, fun unblocked' => ?_⟩
  · refine fits_append.2 ⟨?_, alone'⟩
    rw [List.append_nil]
    exact derives.truncates _ _ (fits unblocked)
  · exact fits_append.2 ⟨fits unblocked, fits' unblocked'⟩

end Explained

/-! ## The readers -/

mutual

theorem explained_readSum {text : List Char} {c : Consumed Tree text}
    (read : readSum text = .ok c) : Explained .sum text c.value c.rest := by
  rw [readSum] at read
  split at read
  next => cases read
  next first readFirst =>
    cases read
    have shorter := first.shorter
    exact explained_extendSum first.rest ((explained_readProduct readFirst).lift .term)
termination_by (text.length, 6)

theorem explained_extendSum {start : List Char} {sum : Tree} (text : List Char)
    (so_far : Explained .sum start sum text) :
    Explained .sum start (extendSum sum text).tree (extendSum sum text).rest := by
  rw [extendSum]
  split
  next => exact so_far
  next operator found =>
    obtain ⟨blanks, c, blank, meaning, parts⟩ := shape_of_symbol? found
    have shorter := operator.shorter
    split
    -- The operator has no product behind it and is left over.
    next => exact so_far
    next term readTerm =>
      have shorter' := term.shorter
      rw [parts] at so_far
      exact explained_extendSum term.rest (.join blank (marks_sumOperator c _ meaning) so_far
        (explained_readProduct readTerm) (.add blanks meaning))
termination_by (text.length, 6)

theorem explained_readProduct {text : List Char} {c : Consumed Tree text}
    (read : readProduct text = .ok c) : Explained .product text c.value c.rest := by
  rw [readProduct] at read
  split at read
  next => cases read
  next first readFirst =>
    have shorter := first.shorter
    split at read
    next => cases read
    next product extended =>
      cases read
      have later :=
        explained_extendProduct ((explained_readSigned readFirst).lift .factor) extended
      exact later
termination_by (text.length, 5)

theorem explained_extendProduct {start text : List Char} {product : Tree} {e : Extended text}
    (so_far : Explained .product start product text)
    (read : extendProduct product text = .ok e) : Explained .product start e.tree e.rest := by
  rw [extendProduct] at read
  split at read
  next operator found =>
    obtain ⟨blanks, c, blank, meaning, parts⟩ := shape_of_symbol? found
    have shorter := operator.shorter
    split at read
    next => cases read
    next factor readFactor =>
      have shorter' := factor.shorter
      split at read
      next => cases read
      next longer extended =>
        cases read
        rw [parts] at so_far
        have later := explained_extendProduct (.join blank (marks_productOperator c _ meaning)
          so_far (explained_readSigned readFactor) (.multiply blanks meaning)) extended
        exact later
  next =>
    split at read
    next follows =>
      split at read
      next => cases read
      next factor readFactor =>
        have shorter := factor.shorter
        split at read
        next => cases read
        next longer extended =>
          cases read
          have later := explained_extendProduct (so_far.juxtapose (explained_readPower readFactor)
            shorter follows (not_blocked_of_readPower follows readFactor)) extended
          exact later
    next =>
      cases read
      exact so_far
termination_by (text.length, 5)

theorem explained_readSigned {text : List Char} {c : Consumed Tree text}
    (read : readSigned text = .ok c) : Explained .signed text c.value c.rest := by
  rw [readSigned] at read
  split at read
  next mark found =>
    obtain ⟨blanks, s, blank, meaning, parts⟩ := shape_of_symbol? found
    have shorter := mark.shorter
    split at read
    next => cases read
    next operand readOperand =>
      cases read
      have signed := (explained_readSigned readOperand).sign blank meaning
      rwa [← parts] at signed
  next => exact (explained_readPower read).lift .unsigned
termination_by (text.length, 4)

theorem explained_readPower {text : List Char} {c : Consumed Tree text}
    (read : readPower text = .ok c) : Explained .power text c.value c.rest := by
  rw [readPower] at read
  split at read
  next => cases read
  next base readBase =>
    have shorter := base.shorter
    have so_far := explained_readAtom readBase
    split at read
    next =>
      cases read
      exact so_far.lift .base
    next mark found =>
      obtain ⟨blanks, s, blank, meaning, parts⟩ := shape_of_symbol? found
      have shorter' := mark.shorter
      split at read
      next => cases read
      next exponent readExponent =>
        cases read
        obtain rfl := caret_eq_some meaning
        rw [parts] at so_far
        exact .join blank (by decide) so_far (explained_readSigned readExponent) (.raise blanks)
termination_by (text.length, 3)

theorem explained_readAtom {text : List Char} {c : Consumed Tree text}
    (read : readAtom text = .ok c) : Explained .atom text c.value c.rest := by
  obtain ⟨blanks, blank, whole⟩ : ∃ blanks, (∀ b ∈ blanks, isBlank b = true) ∧
      blanks ++ skipBlanks text = text :=
    ⟨text.takeWhile isBlank, fun _ => List.mem_takeWhile_imp, List.takeWhile_append_dropWhile⟩
  have notLonger := length_skipBlanks_le text
  rw [readAtom] at read
  split at read
  next literal found =>
    cases read
    obtain ⟨mantissa, exponent, isMantissa, isExponent, value, parts, absent⟩ :=
      shape_of_literal? found
    have explained := Explained.literal blank isMantissa isExponent absent
    rwa [← parts, whole, ← value] at explained
  next =>
    split at read
    next name found =>
      obtain ⟨word, isName, value, parts, ends⟩ := shape_of_name? found
      have shorter := name.shorter
      split at read
      next failure failed =>
        cases read
        have explained := Explained.name blank isName ends failed
        rwa [← parts, whole, ← value] at explained
      next argument readArgument =>
        cases read
        obtain ⟨inside, closing, split, blank', explained⟩ := explained_readGroup readArgument
        have called := explained.call blank isName blank'
        rwa [← split, ← parts, whole, ← value] at called
    next =>
      split at read
      next => cases read
      next inner readInner =>
        cases read
        obtain ⟨inside, closing, split, blank', explained⟩ := explained_readGroup readInner
        have grouped := explained.group blank blank'
        rwa [← split, whole] at grouped
termination_by (text.length, 2)
decreasing_by
  · exact Prod.Lex.left _ _ (Nat.lt_of_lt_of_le shorter notLonger)
  · rcases Nat.lt_or_eq_of_le notLonger with shorter | same
    · exact Prod.Lex.left _ _ shorter
    · rw [same]
      exact Prod.Lex.right _ (by decide)

theorem explained_readGroup {text : List Char} {c : Consumed Tree text}
    (read : readGroup text = .ok c) :
    ∃ inside closing, text = '(' :: inside ∧ (∀ b ∈ closing, isBlank b = true) ∧
      Explained .sum inside c.value (closing ++ ')' :: c.rest) := by
  unfold readGroup at read
  split at read
  next inside =>
    split at read
    next => cases read
    next inner readInner =>
      split at read
      next => cases read
      next mark found =>
        cases read
        obtain ⟨closing, s, blank, meaning, parts⟩ := shape_of_symbol? found
        obtain rfl := closing_eq_some meaning
        have explained := explained_readSum readInner
        rw [parts] at explained
        exact ⟨inside, closing, rfl, blank, explained⟩
  next => cases read
termination_by (text.length, 1)

end

/-! ## Whole texts -/

/-- Nothing is left of a text that is all white space. -/
theorem trim_eq_nil_iff : Text.trim text = [] ↔ IsWhite text := by
  rw [Text.trim, Text.trimEnd, List.reverse_eq_nil_iff, List.dropWhile_eq_nil_iff]
  simp only [List.mem_reverse]
  constructor
  · intro white
    apply List.dropWhile_eq_nil_iff.1
    cases left : text.dropWhile Text.whiteSpace.contains with
    | nil => rfl
    | cons c rest =>
      have other := List.head?_dropWhile_not Text.whiteSpace.contains text
      rw [left] at white other
      rw [List.head?_cons] at other
      simp [white c List.mem_cons_self] at other
  · intro white c member
    exact white c ((List.dropWhile_sublist _).subset member)

theorem not_blocked_of_isWhite (white : IsWhite rest) : ¬ Blocked rest := by
  intro blocked
  obtain ⟨c, more, rfl, kind⟩ := blocked.exists_cons
  have code := toNat_of_whiteSpace (white c List.mem_cons_self)
  rcases kind with numeral | rfl
  · rw [isNumeralPart_iff] at numeral
    omega
  · revert code
    decide

/-- A text that is read is a formula of the grammar with white space behind it. -/
theorem Tree.derives_of_read {source : String} {tree : Tree} (read : Tree.read source = .ok tree) :
    ∃ tokens white, source.toList = textOf tokens ++ white ∧ IsWhite white ∧
      Derives .sum tokens tree ∧ Fits tokens white := by
  rw [Tree.read] at read
  split at read
  next => cases read
  next formula readFormula =>
    split at read
    next trimmed =>
      cases read
      have white := trim_eq_nil_iff.1 trimmed
      obtain ⟨tokens, derives, split, -, fits⟩ := explained_readSum readFormula
      exact ⟨tokens, formula.rest, split, white, derives, fits (not_blocked_of_isWhite white)⟩
    next => cases read

/-- All names in a text that is read are of one kind, whether they are called or not. -/
theorem Tree.named_of_read {source : String} {tree : Tree} (read : Tree.read source = .ok tree) :
    tree.Named := by
  obtain ⟨tokens, white, -, -, derives, fits⟩ := Tree.derives_of_read read
  exact derives.named fits

end Stepwise.Formula
