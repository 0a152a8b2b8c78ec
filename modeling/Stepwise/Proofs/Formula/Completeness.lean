import Stepwise.Proofs.Formula.Soundness

/-!
# What is derived is read

Tokens that stand for a tree are read as that tree, up to their end, if they fit the text behind
them and nothing in it would go on with what they stand for.

- `Gives`: a reader returns a tree and the text behind it
- `Derives.completes`: the readers, level by level
- `Tree.read_of_derives`: a whole text
- `Tree.read_eq_ok_iff`: together with the soundness of the readers, the texts that are read
-/

namespace Stepwise.Formula

variable {text rest middle front : List Char} {tree left right : Tree}

/-- A reader returns a tree and the text behind it. -/
def Gives {text : List Char} (reading : Reading text) (tree : Tree) (rest : List Char) : Prop :=
  ∃ shorter, reading = .ok ⟨tree, rest, shorter⟩

/-- A product is extended to a tree, with `rest` behind it. -/
def Extends {text : List Char} (reading : Except (List Char) (Extended text)) (tree : Tree)
    (rest : List Char) : Prop :=
  ∃ notLonger, reading = .ok ⟨tree, rest, notLonger⟩

/-- A reader of symbols finds one. -/
def Finds {α : Type} {text : List Char} (found : Option (Consumed α text)) (value : α)
    (rest : List Char) : Prop :=
  ∃ shorter, found = some ⟨value, rest, shorter⟩

/-! ## Symbols behind a text -/

section

variable {α : Type} {table : Char → Option α} {blanks : List Char} {c : Char}

theorem finds_append {value : α} (blank : ∀ b ∈ blanks, isBlank b = true)
    (symbol : isSymbol c = true) (meaning : table c = some value) :
    Finds (symbol? table (blanks ++ c :: rest)) value rest :=
  symbol?_append blank (isBlank_eq_false_of_isSymbol symbol) meaning

theorem startsFactor_append_eq_false (blank : ∀ b ∈ blanks, isBlank b = true)
    (symbol : isSymbol c = true) (closed : opens c = false) :
    startsFactor (blanks ++ c :: rest) = false := by
  rw [← Bool.not_eq_true] at closed ⊢
  cases blanks with
  | nil =>
    have code := isSymbol_iff.1 symbol
    rw [opens_iff] at closed
    rw [List.nil_append, startsFactor_cons, isWordStart_iff]
    omega
  | cons b blanks =>
    have code := isBlank_iff.1 (blank b List.mem_cons_self)
    rw [List.cons_append, startsFactor_cons, isWordStart_iff]
    omega

theorem startsFactor_append (rest : List Char) (starts : startsFactor text = true) :
    startsFactor (text ++ rest) = true := by
  cases text with
  | nil => cases starts
  | cons c text => exact starts

theorem symbol?_eq_none_of_startsFactor (marks : Marks table)
    (starts : startsFactor text = true) : symbol? table text = none := by
  cases text with
  | nil => cases starts
  | cons c text =>
    rw [startsFactor_cons, isWordStart_iff] at starts
    apply marks.symbol?_eq_none
    · rw [← Bool.not_eq_true, isBlank_iff]
      omega
    · rw [isSymbol_iff, opens_iff]
      omega

end

theorem productOperator_excludes {c : Char} {operator : Operator}
    (meaning : productOperator c = some operator) : caret c = none := by
  unfold productOperator at meaning
  split at meaning
  · rfl
  · rfl
  · cases meaning

theorem sumOperator_excludes {c : Char} {operator : Operator}
    (meaning : sumOperator c = some operator) :
    caret c = none ∧ productOperator c = none ∧ opens c = false := by
  unfold sumOperator at meaning
  split at meaning
  · decide
  · decide
  · cases meaning

/-! ## One step of a reader -/

theorem readAtom_of_literal {value : List Char} (skipped : skipBlanks text = front)
    (found : Finds (literal? front) value rest) :
    Gives (readAtom text) (.number (literalValue value)) rest := by
  obtain ⟨shorter, found⟩ := found
  subst skipped
  rw [readAtom, found]
  exact ⟨_, rfl⟩

theorem readAtom_of_name {word : String} {failure : List Char} (skipped : skipBlanks text = front)
    (noLiteral : literal? front = none) (found : Finds (name? front) word rest)
    (failed : readGroup rest = .error failure) : Gives (readAtom text) (.name word) rest := by
  obtain ⟨shorter, found⟩ := found
  subst skipped
  rw [readAtom, noLiteral]
  simp only [found, failed]
  exact ⟨_, rfl⟩

theorem readAtom_of_call {word : String} (skipped : skipBlanks text = front)
    (noLiteral : literal? front = none) (found : Finds (name? front) word middle)
    (argument : Gives (readGroup middle) tree rest) :
    Gives (readAtom text) (.call word tree) rest := by
  obtain ⟨shorter, found⟩ := found
  obtain ⟨shorter', read⟩ := argument
  subst skipped
  rw [readAtom, noLiteral]
  simp only [found, read]
  exact ⟨_, rfl⟩

theorem readAtom_of_group (skipped : skipBlanks text = front) (noLiteral : literal? front = none)
    (noName : name? front = none) (inner : Gives (readGroup front) tree rest) :
    Gives (readAtom text) tree rest := by
  obtain ⟨shorter, read⟩ := inner
  subst skipped
  rw [readAtom, noLiteral]
  simp only [noName, read]
  exact ⟨_, rfl⟩

theorem readGroup_of_sum (sum : Gives (readSum text) tree middle)
    (closed : Finds (symbol? closing middle) () rest) :
    Gives (readGroup ('(' :: text)) tree rest := by
  obtain ⟨shorter, read⟩ := sum
  obtain ⟨shorter', found⟩ := closed
  rw [readGroup]
  simp only [read, found]
  exact ⟨_, rfl⟩

theorem readGroup_of_avoids (avoids : Avoids opens text) : readGroup text = .error text := by
  unfold readGroup
  split
  next inside => exact absurd (avoids_cons.1 avoids) (by decide)
  next => rfl

theorem readPower_of_atom (atom : Gives (readAtom text) tree rest)
    (noCaret : symbol? caret rest = none) : Gives (readPower text) tree rest := by
  obtain ⟨shorter, read⟩ := atom
  rw [readPower, read]
  simp only [noCaret]
  exact ⟨_, rfl⟩

theorem readPower_of_caret {behind : List Char} (atom : Gives (readAtom text) left middle)
    (mark : Finds (symbol? caret middle) () behind)
    (signed : Gives (readSigned behind) right rest) :
    Gives (readPower text) (.binary .power left right) rest := by
  obtain ⟨shorter, read⟩ := atom
  obtain ⟨shorter', found⟩ := mark
  obtain ⟨shorter'', read'⟩ := signed
  rw [readPower, read]
  simp only [found, read']
  exact ⟨_, rfl⟩

theorem readSigned_of_power (power : Gives (readPower text) tree rest)
    (noSign : symbol? sign text = none) : Gives (readSigned text) tree rest := by
  rw [readSigned, noSign]
  exact power

theorem readSigned_of_sign {apply : Tree → Tree} (mark : Finds (symbol? sign text) apply middle)
    (signed : Gives (readSigned middle) tree rest) :
    Gives (readSigned text) (apply tree) rest := by
  obtain ⟨shorter, found⟩ := mark
  obtain ⟨shorter', read⟩ := signed
  rw [readSigned, found]
  simp only [read]
  exact ⟨_, rfl⟩

theorem readProduct_of_signed (signed : Gives (readSigned text) left middle)
    (extended : Extends (extendProduct left middle) tree rest) :
    Gives (readProduct text) tree rest := by
  obtain ⟨shorter, read⟩ := signed
  obtain ⟨notLonger, read'⟩ := extended
  rw [readProduct, read]
  simp only [read']
  exact ⟨_, rfl⟩

theorem extendProduct_of_operator {operator : Operator} {behind : List Char}
    (mark : Finds (symbol? productOperator text) operator behind)
    (signed : Gives (readSigned behind) right middle)
    (extended : Extends (extendProduct (.binary operator left right) middle) tree rest) :
    Extends (extendProduct left text) tree rest := by
  obtain ⟨shorter, found⟩ := mark
  obtain ⟨shorter', read⟩ := signed
  obtain ⟨notLonger, read'⟩ := extended
  rw [extendProduct, found]
  simp only [read, read']
  exact ⟨_, rfl⟩

theorem extendProduct_of_factor (noOperator : symbol? productOperator text = none)
    (follows : startsFactor text = true) (power : Gives (readPower text) right middle)
    (extended : Extends (extendProduct (.binary .multiply left right) middle) tree rest) :
    Extends (extendProduct left text) tree rest := by
  obtain ⟨shorter, read⟩ := power
  obtain ⟨notLonger, read'⟩ := extended
  rw [extendProduct, noOperator]
  simp only [follows, read, read']
  exact ⟨_, rfl⟩

theorem extendProduct_of_end (noOperator : symbol? productOperator text = none)
    (ends : startsFactor text = false) : Extends (extendProduct tree text) tree text := by
  rw [extendProduct, noOperator]
  simp only [ends]
  exact ⟨_, rfl⟩

theorem readSum_of_product (product : Gives (readProduct text) left middle) :
    Gives (readSum text) (extendSum left middle).tree (extendSum left middle).rest := by
  obtain ⟨shorter, read⟩ := product
  rw [readSum, read]
  exact ⟨_, rfl⟩

theorem extendSum_of_operator {operator : Operator} {behind : List Char}
    (mark : Finds (symbol? sumOperator text) operator behind)
    (product : Gives (readProduct behind) right middle) :
    (extendSum left text).tree = (extendSum (.binary operator left right) middle).tree ∧
      (extendSum left text).rest = (extendSum (.binary operator left right) middle).rest := by
  obtain ⟨shorter, found⟩ := mark
  obtain ⟨shorter', read⟩ := product
  rw [extendSum, found]
  simp [read]

theorem extendSum_of_end (noOperator : symbol? sumOperator text = none) :
    (extendSum tree text).tree = tree ∧ (extendSum tree text).rest = text := by
  rw [extendSum, noOperator]
  exact ⟨rfl, rfl⟩

/-! ## The first character -/

/-- What an atom or a power starts with. -/
def Part.Starts : Part → Prop
  | .symbol c => c = '('
  | _ => True

theorem Derives.starts {level : Level} {tokens : List Token} (derives : Derives level tokens tree)
    (low : level = .atom ∨ level = .power) :
    ∃ token more, tokens = token :: more ∧ token.part.Starts := by
  induction derives with
  | literal => exact ⟨_, _, rfl, trivial⟩
  | name => exact ⟨_, _, rfl, trivial⟩
  | call => exact ⟨_, _, rfl, trivial⟩
  | group => exact ⟨_, _, rfl, rfl⟩
  | base _ ih => exact ih (.inl rfl)
  | raise _ _ _ ih =>
    obtain ⟨token, more, rfl, starts⟩ := ih (.inl rfl)
    exact ⟨token, _, rfl, starts⟩
  | _ => rcases low with low | low <;> cases low

/-- The first character of what starts an atom, by its code point. -/
theorem Part.Fits.exists_start {part : Part} (fits : part.Fits rest) (starts : part.Starts) :
    ∃ c more, part.text = c :: more ∧ (c.toNat = 40 ∨ c.toNat = 46 ∨ 48 ≤ c.toNat ∧
      c.toNat ≤ 90 ∨ 95 ≤ c.toNat) := by
  obtain ⟨c, more, split, kind | rfl⟩ := fits.exists_cons
  · rw [isWordStart_iff, isNumeralPart_iff] at kind
    exact ⟨c, more, split, by omega⟩
  · obtain rfl : c = '(' := starts
    exact ⟨_, more, split, .inl rfl⟩

theorem Fits.skipBlanks {token : Token} {tokens : List Token} (fits : Fits (token :: tokens) rest)
    (starts : token.part.Starts) :
    skipBlanks (textOf (token :: tokens) ++ rest) = token.part.text ++ (textOf tokens ++ rest) := by
  obtain ⟨blank, fitsPart, -⟩ := fits
  obtain ⟨c, others, split, code⟩ := fitsPart.exists_start starts
  rw [textOf_cons, Token.text, List.append_assoc, List.append_assoc]
  apply skipBlanks_append blank
  rw [split, List.cons_append, avoids_cons, ← Bool.not_eq_true, isBlank_iff]
  omega

theorem IsName.literal?_eq_none {word : List Char} (isName : IsName word) (rest : List Char) :
    literal? (word ++ rest) = none := by
  apply Formula.literal?_eq_none
  cases isName with
  | pi => exact avoids_cons.2 (by decide)
  | word start =>
    rw [isWordStart_iff] at start
    rw [List.cons_append, avoids_cons, ← Bool.not_eq_true, isNumeralPart_iff]
    omega

/-- No sign is in front of what starts an atom. -/
theorem Derives.noSign {level : Level} {tokens : List Token} (derives : Derives level tokens tree)
    (low : level = .atom ∨ level = .power) (fits : Fits tokens rest) :
    symbol? Formula.sign (textOf tokens ++ rest) = none := by
  obtain ⟨⟨blanks, part⟩, more, rfl, starts⟩ := derives.starts low
  obtain ⟨blank, fitsPart, -⟩ := fits
  obtain ⟨c, others, split, code⟩ := fitsPart.exists_start starts
  rw [textOf_cons, Token.text, split, List.append_assoc, List.append_assoc, List.cons_append]
  apply symbol?_append_eq_none blank
  · rw [← Bool.not_eq_true, isBlank_iff]
    omega
  · cases meaning : Formula.sign c with
    | none => rfl
    | some value =>
      obtain ⟨symbol, closed⟩ := marks_sign c value meaning
      rw [isSymbol_iff] at symbol
      rw [← Bool.not_eq_true, opens_iff] at closed
      omega

/-! ## All levels -/

/-- What the readers make of tokens, with any text behind them that does not go on with them. Sums
and products are read as far as they have come; the rest is left to the extension. -/
def Completes : Level → List Token → Tree → Prop
  | .atom, tokens, tree =>
    ∀ rest, Fits tokens rest → Gives (readAtom (textOf tokens ++ rest)) tree rest
  | .power, tokens, tree => ∀ rest, Fits tokens rest → symbol? caret rest = none →
    Gives (readPower (textOf tokens ++ rest)) tree rest
  | .signed, tokens, tree => ∀ rest, Fits tokens rest → symbol? caret rest = none →
    Gives (readSigned (textOf tokens ++ rest)) tree rest
  | .product, tokens, tree => ∀ rest, Fits tokens rest → symbol? caret rest = none →
    ∀ whole behind, Extends (extendProduct tree rest) whole behind →
      Gives (readProduct (textOf tokens ++ rest)) whole behind
  | .sum, tokens, tree => ∀ rest, Fits tokens rest → symbol? caret rest = none →
    symbol? productOperator rest = none → startsFactor rest = false →
      Gives (readSum (textOf tokens ++ rest)) (extendSum tree rest).tree (extendSum tree rest).rest

theorem readGroup_of_completes {inside : List Token} {blanks : List Char}
    (completes : Completes .sum inside tree)
    (fits : Fits (inside ++ [⟨blanks, .symbol ')'⟩]) rest) :
    Gives (readGroup ('(' :: (textOf (inside ++ [⟨blanks, .symbol ')'⟩]) ++ rest))) tree rest := by
  obtain ⟨fitsInside, blank, -, -⟩ := fits_append.1 fits
  rw [textOf_symbol] at fitsInside
  have read := completes _ fitsInside (symbol?_append_eq_none blank rfl rfl)
    (symbol?_append_eq_none blank rfl rfl) (startsFactor_append_eq_false blank rfl rfl)
  have noOperator : symbol? sumOperator (blanks ++ ')' :: rest) = none :=
    symbol?_append_eq_none blank rfl rfl
  rw [textOf_nil, List.nil_append, (extendSum_of_end noOperator).1,
    (extendSum_of_end noOperator).2] at read
  rw [textOf_append, List.append_assoc, textOf_symbol]
  exact readGroup_of_sum read (finds_append blank rfl rfl)

theorem Derives.completes {level : Level} {tokens : List Token}
    (derives : Derives level tokens tree) : Completes level tokens tree := by
  induction derives with
  | literal blanks denotes =>
    intro rest fits
    have skipped := fits.skipBlanks trivial
    obtain ⟨-, ⟨isMantissa, isExponent, avoids, absent⟩, -⟩ := fits
    rw [← denotes.literalValue_eq]
    exact readAtom_of_literal skipped
      (literal?_append isMantissa isExponent avoids absent)
  | name blanks word =>
    intro rest fits
    have skipped := fits.skipBlanks trivial
    obtain ⟨-, ⟨isName, ends, -, closed⟩, -⟩ := fits
    exact readAtom_of_name skipped (isName.literal?_eq_none _)
      (name?_append isName ends) (readGroup_of_avoids closed)
  | @call blanks word closing inside argument sum ih =>
    intro rest fits
    have skipped := fits.skipBlanks trivial
    obtain ⟨-, ⟨isName, -⟩, -, -, fitsInside⟩ := fits
    have behind : textOf (⟨[], .symbol '('⟩ :: inside ++ [⟨closing, .symbol ')'⟩]) ++ rest =
        '(' :: (textOf (inside ++ [⟨closing, .symbol ')'⟩]) ++ rest) := textOf_symbol _ _ _ _
    have ends : word = ['π'] ∨ Avoids isWordPart
        (textOf (⟨[], .symbol '('⟩ :: inside ++ [⟨closing, .symbol ')'⟩]) ++ rest) := by
      rw [behind]
      exact .inr (avoids_cons.2 (by decide))
    have argumentRead := readGroup_of_completes ih fitsInside
    rw [← behind] at argumentRead
    exact readAtom_of_call skipped (isName.literal?_eq_none _)
      (name?_append isName ends) argumentRead
  | group blanks closing sum ih =>
    intro rest fits
    have skipped := fits.skipBlanks rfl
    obtain ⟨-, -, fitsInside⟩ := fits
    exact readAtom_of_group skipped (literal?_eq_none (avoids_cons.2 (by decide)))
      (name?_eq_none (by decide) (by decide)) (readGroup_of_completes ih fitsInside)
  | base atom ih =>
    intro rest fits noCaret
    exact readPower_of_atom (ih rest fits) noCaret
  | raise blanks atom signed ih ih' =>
    intro rest fits noCaret
    obtain ⟨fitsBase, blank, symbol, fitsExponent⟩ := fits_append.1 fits
    -- The base is read with the caret behind it.
    have readBase := ih _ fitsBase
    rw [textOf_symbol] at readBase
    rw [textOf_append, List.append_assoc, textOf_symbol]
    exact readPower_of_caret readBase (finds_append blank rfl rfl)
      (ih' rest fitsExponent noCaret)
  | unsigned power ih =>
    intro rest fits noCaret
    exact readSigned_of_power (ih rest fits noCaret) (power.noSign (.inr rfl) fits)
  | sign blanks mark signed ih =>
    intro rest fits noCaret
    obtain ⟨blank, symbol, fitsOperand⟩ := fits
    rw [textOf_symbol]
    exact readSigned_of_sign (finds_append blank symbol mark) (ih rest fitsOperand noCaret)
  | factor signed ih =>
    intro rest fits noCaret whole behind extended
    exact readProduct_of_signed (ih rest fits noCaret) extended
  | multiply blanks meaning product signed ih ih' =>
    intro rest fits noCaret whole behind extended
    obtain ⟨fitsLeft, blank, symbol, fitsRight⟩ := fits_append.1 fits
    have noCaretLeft : caret _ = none := productOperator_excludes meaning
    rw [textOf_symbol] at fitsLeft
    rw [textOf_append, List.append_assoc, textOf_symbol]
    -- The left factors are extended by the operator, and that by whatever extends the product.
    refine ih _ fitsLeft
      (symbol?_append_eq_none blank (isBlank_eq_false_of_isSymbol symbol) noCaretLeft) _ _ ?_
    exact extendProduct_of_operator (finds_append blank symbol meaning)
      (ih' rest fitsRight noCaret) extended
  | juxtapose product power start ih ih' =>
    intro rest fits noCaret whole behind extended
    obtain ⟨fitsLeft, fitsRight⟩ := fits_append.1 fits
    have starts := startsFactor_append rest start
    rw [textOf_append, List.append_assoc]
    refine ih _ fitsLeft (symbol?_eq_none_of_startsFactor marks_caret starts) _ _ ?_
    exact extendProduct_of_factor (symbol?_eq_none_of_startsFactor marks_productOperator starts)
      starts (ih' rest fitsRight noCaret) extended
  | term product ih =>
    intro rest fits noCaret noOperator ends
    exact readSum_of_product (ih rest fits noCaret _ _ (extendProduct_of_end noOperator ends))
  | add blanks meaning sum product ih ih' =>
    intro rest fits noCaret noOperator ends
    obtain ⟨fitsLeft, blank, symbol, fitsRight⟩ := fits_append.1 fits
    obtain ⟨noCaretLeft, noOperatorLeft, closed⟩ := sumOperator_excludes meaning
    have visible := isBlank_eq_false_of_isSymbol symbol
    rw [textOf_symbol] at fitsLeft
    -- The operator of the sum ends the product before it.
    have read := ih _ fitsLeft (symbol?_append_eq_none blank visible noCaretLeft)
      (symbol?_append_eq_none blank visible noOperatorLeft)
      (startsFactor_append_eq_false blank symbol closed)
    have readRight := ih' rest fitsRight noCaret _ _ (extendProduct_of_end noOperator ends)
    rw [(extendSum_of_operator (finds_append blank symbol meaning) readRight).1,
      (extendSum_of_operator (finds_append blank symbol meaning) readRight).2] at read
    rw [textOf_append, List.append_assoc, textOf_symbol]
    exact read

/-! ## Whole texts -/

theorem symbol?_eq_none_of_isWhite {α : Type} {table : Char → Option α} (marks : Marks table)
    (white : IsWhite text) : symbol? table text = none := by
  apply symbol?_eq_none
  intro c first
  have member : c ∈ text := (List.dropWhile_sublist _).subset (List.mem_of_mem_head? first)
  cases meaning : table c with
  | none => rfl
  | some value =>
    have symbol := isSymbol_iff.1 (marks c value meaning).1
    have code := toNat_of_whiteSpace (white c member)
    omega

theorem startsFactor_eq_false_of_isWhite (white : IsWhite text) : startsFactor text = false := by
  cases text with
  | nil => rfl
  | cons c text =>
    have code := toNat_of_whiteSpace (white c List.mem_cons_self)
    rw [← Bool.not_eq_true, startsFactor_cons, isWordStart_iff]
    omega

/-- A formula of the grammar is read, whatever white space is behind it. -/
theorem Tree.read_of_derives {source : String} {tokens : List Token} {white : List Char}
    (split : source.toList = textOf tokens ++ white) (isWhite : IsWhite white)
    (derives : Derives .sum tokens tree) (fits : Fits tokens white) :
    Tree.read source = .ok tree := by
  have noOperator := symbol?_eq_none_of_isWhite marks_sumOperator isWhite
  have completed := derives.completes white fits
    (symbol?_eq_none_of_isWhite marks_caret isWhite)
    (symbol?_eq_none_of_isWhite marks_productOperator isWhite)
    (startsFactor_eq_false_of_isWhite isWhite)
  rw [← split] at completed
  obtain ⟨shorter, read⟩ := completed
  rw [Tree.read, read]
  simp only [(extendSum_of_end noOperator).1, (extendSum_of_end noOperator).2,
    trim_eq_nil_iff.2 isWhite]

/-- The texts that are read as a tree are the formulas of the grammar for it. Apart from white space
at the end, each character of such a text is part of a token or one of the blanks before it. -/
theorem Tree.read_eq_ok_iff {source : String} :
    Tree.read source = .ok tree ↔
      ∃ tokens white, source.toList = textOf tokens ++ white ∧ IsWhite white ∧
        Derives .sum tokens tree ∧ Fits tokens white := by
  constructor
  · exact Tree.derives_of_read
  · rintro ⟨tokens, white, split, isWhite, derives, fits⟩
    exact Tree.read_of_derives split isWhite derives fits

end Stepwise.Formula
