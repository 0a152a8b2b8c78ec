import Stepwise.Proofs.Formula.Completeness

/-!
# Formulas as they are printed

A tree is printed with parentheses only where a part binds less tightly than its place asks for.
Everything else is free: the blanks before a part, the literal for a number, and whether a factor is
multiplied by `*` or by standing side by side, as long as the two sides do not run together.

- `Tree.level`: how tightly a tree binds
- `Prints`: the printed forms of a tree in a place of some level
- `Prints.derives`, `Prints.fits`: a printed form is a formula of the grammar, told apart as it is
- `read_of_prints`: each printed form is read as the tree
-/

namespace Stepwise.Formula

/-! ## Precedence -/

/-- The levels from the loosest to the tightest. -/
def Level.rank : Level → Nat
  | .sum => 0
  | .product => 1
  | .signed => 2
  | .power => 3
  | .atom => 4

namespace Operator

/-- The character of an operation. -/
def symbol : Operator → Char
  | .add => '+'
  | .subtract => '-'
  | .multiply => '*'
  | .divide => '/'
  | .power => '^'

def level : Operator → Level
  | .add | .subtract => .sum
  | .multiply | .divide => .product
  | .power => .power

/-- The place before an operator. Sums and products group to the left. -/
def leftLevel : Operator → Level
  | .add | .subtract => .sum
  | .multiply | .divide => .product
  | .power => .atom

/-- The place behind an operator. Powers group to the right, and their exponents may be signed. -/
def rightLevel : Operator → Level
  | .add | .subtract => .product
  | .multiply | .divide | .power => .signed

theorem isSymbol_symbol (operator : Operator) : isSymbol operator.symbol = true := by
  cases operator <;> rfl

theorem opens_symbol (operator : Operator) : opens operator.symbol = false := by
  cases operator <;> rfl

end Operator

namespace Tree

def level : Tree → Level
  | .number _ | .name _ | .call _ _ => .atom
  | .negate _ => .signed
  | .binary operator _ _ => operator.level

/-- The trees that have a text: their numbers have no sign, and their names are names. -/
def Printable : Tree → Prop
  | .number value => Binary64.Unsigned value
  | .name word => IsName word.toList
  | .negate operand => operand.Printable
  | .binary _ left right => left.Printable ∧ right.Printable
  | .call function argument => IsName function.toList ∧ argument.Printable

end Tree

/-! ## Printed forms -/

def IsBlanks (blanks : List Char) : Prop := ∀ b ∈ blanks, isBlank b = true

/-- Two parts that do not run together when the second starts a factor directly behind the first. A
name is neither extended nor made a call of. The letter e behind a number stays a name, since
neither it alone nor a word of it and digits is printed there. -/
def Part.Apart : Part → Part → Prop
  | .name word, next => ∀ c ∈ next.text.head?, c ≠ '(' ∧ (word = ['π'] ∨ isWordPart c = false)
  | .literal _ _, next => next ≠ .name ['e'] ∧ next ≠ .name ['E'] ∧
      ∀ mark digit more, next.text = mark :: digit :: more → isExponentMark mark = true →
        digit.isDigit = false
  | _, _ => True

/-- The printed forms of a tree, as tokens, in a place that takes trees of a level and of all
tighter ones. A tree that is looser is put in parentheses, and only such a tree is. -/
inductive Prints : Level → Tree → List Token → Prop where
  | number {level : Level} {blanks mantissa exponent : List Char} {value : Float}
    (blank : IsBlanks blanks) (denotes : Denotes mantissa exponent value) :
    Prints level (.number value) [⟨blanks, .literal mantissa exponent⟩]
  | name {level : Level} {blanks word : List Char} (blank : IsBlanks blanks)
    (isName : IsName word) : Prints level (.name (String.ofList word)) [⟨blanks, .name word⟩]
  | call {level : Level} {blanks word closing : List Char} {inside : List Token} {argument : Tree}
    (blank : IsBlanks blanks) (isName : IsName word) (argumentPrints : Prints .sum argument inside)
    (blank' : IsBlanks closing) :
    Prints level (.call (String.ofList word) argument)
      (⟨blanks, .function word⟩ :: ⟨[], .symbol '('⟩ :: inside ++ [⟨closing, .symbol ')'⟩])
  | negate {level : Level} {blanks : List Char} {tokens : List Token} {operand : Tree}
    (within : level.rank ≤ Level.signed.rank) (blank : IsBlanks blanks)
    (operandPrints : Prints .signed operand tokens) :
    Prints level (.negate operand) (⟨blanks, .symbol '-'⟩ :: tokens)
  | binary {level : Level} {operator : Operator} {blanks : List Char}
    {tokens tokens' : List Token} {left right : Tree}
    (within : level.rank ≤ operator.level.rank) (blank : IsBlanks blanks)
    (leftPrints : Prints operator.leftLevel left tokens)
    (rightPrints : Prints operator.rightLevel right tokens') :
    Prints level (.binary operator left right)
      (tokens ++ ⟨blanks, .symbol operator.symbol⟩ :: tokens')
  | juxtapose {level : Level} {tokens tokens' : List Token} {left right : Tree}
    (within : level.rank ≤ Level.product.rank) (leftPrints : Prints .product left tokens)
    (rightPrints : Prints .power right tokens') (start : startsFactor (textOf tokens') = true)
    (apart : ∀ last ∈ tokens.getLast?, ∀ first ∈ tokens'.head?, last.part.Apart first.part) :
    Prints level (.binary .multiply left right) (tokens ++ tokens')
  | group {level : Level} {blanks closing : List Char} {inside : List Token} {tree : Tree}
    (loose : tree.level.rank < level.rank) (blank : IsBlanks blanks)
    (treePrints : Prints .sum tree inside) (blank' : IsBlanks closing) :
    Prints level tree (⟨blanks, .symbol '('⟩ :: inside ++ [⟨closing, .symbol ')'⟩])

/-! ## Printed forms are derived -/

variable {level level' : Level} {tokens tokens' : List Token} {tree left right : Tree}
  {rest : List Char}

theorem Derives.to_power (derives : Derives level tokens tree)
    (tight : Level.power.rank ≤ level.rank) : Derives .power tokens tree := by
  cases level with
  | power => exact derives
  | atom => exact .base derives
  | sum | product | signed => simp [Level.rank] at tight

theorem Derives.to_signed (derives : Derives level tokens tree)
    (tight : Level.signed.rank ≤ level.rank) : Derives .signed tokens tree := by
  cases level with
  | signed => exact derives
  | power | atom => exact .unsigned (derives.to_power (by simp [Level.rank]))
  | sum | product => simp [Level.rank] at tight

theorem Derives.to_product (derives : Derives level tokens tree)
    (tight : Level.product.rank ≤ level.rank) : Derives .product tokens tree := by
  cases level with
  | product => exact derives
  | signed | power | atom => exact .factor (derives.to_signed (by simp [Level.rank]))
  | sum => simp [Level.rank] at tight

/-- What is derived on a level is derived on all looser ones. -/
theorem Derives.loosen (derives : Derives level tokens tree) (tight : level'.rank ≤ level.rank) :
    Derives level' tokens tree := by
  cases level' with
  | sum =>
    cases level with
    | sum => exact derives
    | product | signed | power | atom => exact .term (derives.to_product (by simp [Level.rank]))
  | product => exact derives.to_product tight
  | signed => exact derives.to_signed tight
  | power => exact derives.to_power tight
  | atom =>
    cases level with
    | atom => exact derives
    | sum | product | signed | power => simp [Level.rank] at tight

theorem Level.rank_le_atom (level : Level) : level.rank ≤ Level.atom.rank := by
  cases level <;> simp [rank]

theorem Derives.binary {operator : Operator} (blanks : List Char)
    (leftDerives : Derives operator.leftLevel tokens left)
    (rightDerives : Derives operator.rightLevel tokens' right) :
    Derives operator.level (tokens ++ ⟨blanks, .symbol operator.symbol⟩ :: tokens')
      (.binary operator left right) := by
  cases operator with
  | add | subtract => exact .add blanks rfl leftDerives rightDerives
  | multiply | divide => exact .multiply blanks rfl leftDerives rightDerives
  | power => exact .raise blanks leftDerives rightDerives

theorem Prints.derives (prints : Prints level tree tokens) : Derives level tokens tree := by
  induction prints with
  | number _ denotes => exact (Derives.literal _ denotes).loosen (Level.rank_le_atom _)
  | name => exact (Derives.name _ _).loosen (Level.rank_le_atom _)
  | call _ _ _ _ ih => exact (Derives.call _ _ _ ih).loosen (Level.rank_le_atom _)
  | negate within _ _ ih => exact (Derives.sign _ rfl ih).loosen within
  | binary within _ _ _ ih ih' => exact (Derives.binary _ ih ih').loosen within
  | juxtapose within _ _ start _ ih ih' => exact (Derives.juxtapose ih ih' start).loosen within
  | group _ _ _ _ ih => exact (Derives.group _ _ ih).loosen (Level.rank_le_atom _)

/-! ## Printed forms are told apart -/

/-- A part at the end of a printed form. -/
def Part.Closes : Part → Prop
  | .literal mantissa exponent => IsMantissa mantissa ∧ IsExponent exponent
  | .name word => IsName word
  | .function _ => False
  | .symbol c => isSymbol c = true

/-- The characters that may go on with a part. -/
def goesOn (c : Char) : Bool := isWordPart c || isNumeralPart c || opens c

theorem goesOn_iff {c : Char} : goesOn c = true ↔
    isWordPart c = true ∨ isNumeralPart c = true ∨ opens c = true := by
  simp [goesOn, or_assoc]

theorem Part.Closes.fits {part : Part} (closes : part.Closes) (avoids : Avoids goesOn rest) :
    part.Fits rest := by
  have noWord : Avoids isWordPart rest := avoids.mono fun c word => goesOn_iff.2 (.inl word)
  have noNumeral : Avoids isNumeralPart rest :=
    avoids.mono fun c numeral => goesOn_iff.2 (.inr (.inl numeral))
  have closed : Avoids opens rest := avoids.mono fun c opening => goesOn_iff.2 (.inr (.inr opening))
  cases part with
  | literal mantissa exponent =>
    have noMark : Avoids isExponentMark rest := by
      refine noWord.mono fun c isMark => ?_
      rw [isExponentMark_iff] at isMark
      rw [isWordPart_iff, isWordStart_iff]
      omega
    exact ⟨closes.1, closes.2, noNumeral, fun _ => splitExponent_eq_nil noMark⟩
  | name word => exact ⟨closes, .inr noWord, noNumeral, closed⟩
  | function word => exact closes.elim
  | symbol c => exact closes

theorem avoids_goesOn_symbol {blanks : List Char} {c : Char} (blank : IsBlanks blanks)
    (symbol : isSymbol c = true) (closed : opens c = false) :
    Avoids goesOn (blanks ++ c :: rest) := by
  rw [← Bool.not_eq_true, opens_iff] at closed
  cases blanks with
  | nil =>
    rw [List.nil_append, avoids_cons, ← Bool.not_eq_true, goesOn_iff, isWordPart_iff,
      isWordStart_iff, isNumeralPart_iff, opens_iff]
    rw [isSymbol_iff] at symbol
    omega
  | cons b blanks =>
    have code := isBlank_iff.1 (blank b List.mem_cons_self)
    rw [List.cons_append, avoids_cons, ← Bool.not_eq_true, goesOn_iff, isWordPart_iff,
      isWordStart_iff, isNumeralPart_iff, opens_iff]
    omega

theorem Prints.exists_last (prints : Prints level tree tokens) :
    ∃ front last, tokens = front ++ [last] ∧ last.part.Closes := by
  induction prints with
  | @number _ blanks mantissa exponent _ _ denotes =>
    exact ⟨[], ⟨blanks, .literal mantissa exponent⟩, rfl, denotes.isMantissa, denotes.isExponent⟩
  | @name _ blanks word _ isName => exact ⟨[], ⟨blanks, .name word⟩, rfl, isName⟩
  | call | group => exact ⟨_, ⟨_, .symbol ')'⟩, rfl, rfl⟩
  | negate _ _ _ ih =>
    obtain ⟨front, last, rfl, closes⟩ := ih
    exact ⟨_ :: front, last, rfl, closes⟩
  | @binary _ operator blanks tokens _ _ _ _ _ _ _ _ ih =>
    obtain ⟨front, last, rfl, closes⟩ := ih
    exact ⟨tokens ++ ⟨blanks, .symbol operator.symbol⟩ :: front, last, by simp, closes⟩
  | @juxtapose _ tokens _ _ _ _ _ _ _ _ _ ih =>
    obtain ⟨front, last, rfl, closes⟩ := ih
    exact ⟨tokens ++ front, last, by simp, closes⟩

/-- Behind the letter that announces an exponent comes neither a digit nor a sign, if the letter
starts a word that does not go on with a digit. -/
theorem splitExponent_eq_nil_of_word {mark : Char} {word : List Char}
    (isMark : isExponentMark mark = true) (isName : IsName (mark :: word))
    (noDigit : ∀ digit more, word = digit :: more → digit.isDigit = false)
    (alone : word = [] → ∃ inside, rest = '(' :: inside) :
    (splitExponent (mark :: word ++ rest)).1 = [] := by
  obtain ⟨d, more, behind, notDigit, notSign⟩ : ∃ d more, word ++ rest = d :: more ∧
      d.isDigit = false ∧ (d == '+' || d == '-') = false := by
    cases word with
    | nil =>
      obtain ⟨inside, rfl⟩ := alone rfl
      exact ⟨'(', inside, rfl, rfl, rfl⟩
    | cons d more =>
      have notDigit := noDigit d more rfl
      refine ⟨d, more ++ rest, rfl, notDigit, ?_⟩
      cases isName with
      | word _ parts =>
        have part := parts d List.mem_cons_self
        rw [← Bool.not_eq_true, isDigit_iff] at notDigit
        rw [isWordPart_iff, isWordStart_iff] at part
        rw [← Bool.not_eq_true, Bool.or_eq_true, beq_iff_eq, beq_iff_eq, eq_iff_toNat_eq,
          eq_iff_toNat_eq]
        change ¬ (d.toNat = 43 ∨ d.toNat = 45)
        omega
  rw [List.cons_append, splitExponent_cons isMark, behind]
  exact avoids_splitSign (avoids_cons.2 notDigit) (avoids_cons.2 notSign)

/-- The exponent that a number does not have is not made up by the factor behind it. -/
theorem splitExponent_eq_nil_of_apart {mantissa exponent : List Char} {next : Part}
    (fits : next.Fits rest) (apart : (Part.literal mantissa exponent).Apart next) :
    (splitExponent (next.text ++ rest)).1 = [] := by
  obtain ⟨notSmall, notCapital, noDigit⟩ := apart
  obtain ⟨c, more, split, -⟩ := fits.exists_cons
  by_cases isMark : isExponentMark c = true
  · have code := isExponentMark_iff.1 isMark
    have behind (digit : Char) (others : List Char) (first : more = digit :: others) :
        digit.isDigit = false := noDigit c digit others (by rw [split, first]) isMark
    cases next with
    | literal mantissa =>
      obtain ⟨isMantissa, -⟩ := fits
      cases mantissa with
      | nil => exact absurd rfl isMantissa.ne_nil
      | cons d mantissa =>
        cases split
        have numeral := isNumeralPart_iff.1 (isMantissa.all c List.mem_cons_self)
        omega
    | symbol d =>
      cases split
      have symbol := isSymbol_iff.1 fits
      omega
    | name word =>
      obtain rfl : word = c :: more := split
      refine splitExponent_eq_nil_of_word isMark fits.1 behind fun alone => ?_
      subst alone
      rcases (by simpa [isExponentMark] using isMark : c = 'e' ∨ c = 'E') with rfl | rfl
      · exact absurd rfl notSmall
      · exact absurd rfl notCapital
    | function word =>
      obtain rfl : word = c :: more := split
      exact splitExponent_eq_nil_of_word isMark fits.1 behind fun _ => fits.2
  · rw [split]
    exact splitExponent_eq_nil (avoids_cons.2 (by simpa using isMark))

/-- The last part of a product goes on to its end and no further, if the factor behind it is
apart. -/
theorem Part.Closes.fits_of_apart {part next : Part} (closes : part.Closes) (fits : next.Fits rest)
    (start : startsFactor next.text = true) (apart : part.Apart next) :
    part.Fits (next.text ++ rest) := by
  obtain ⟨c, more, split, -⟩ := fits.exists_cons
  rw [split, startsFactor_cons, isWordStart_iff] at start
  have noNumeral : Avoids isNumeralPart (next.text ++ rest) := by
    rw [split, List.cons_append, avoids_cons, ← Bool.not_eq_true, isNumeralPart_iff]
    omega
  cases part with
  | literal mantissa exponent =>
    exact ⟨closes.1, closes.2, noNumeral, fun _ => splitExponent_eq_nil_of_apart fits apart⟩
  | name word =>
    obtain ⟨notOpening, ends⟩ := apart c (by rw [split]; rfl)
    refine ⟨closes, ends.imp_right fun other => ?_, noNumeral, ?_⟩
    · rw [split]
      exact avoids_cons.2 other
    · rw [split]
      exact avoids_cons.2 (by simpa [opens] using notOpening)
  | function word => exact closes.elim
  | symbol d => exact closes

/-- A symbol ends a printed form, unless it opens a parenthesis. -/
theorem Prints.last_fits {blanks text : List Char} {c : Char} (prints : Prints level tree tokens)
    (blank : IsBlanks blanks) (symbol : isSymbol c = true) (closed : opens c = false) :
    ∀ last ∈ tokens.getLast?, last.part.Fits (blanks ++ c :: text) := by
  obtain ⟨front, last, rfl, closes⟩ := prints.exists_last
  intro other same
  rw [List.getLast?_concat] at same
  cases same
  exact closes.fits (avoids_goesOn_symbol blank symbol closed)

theorem Prints.getLast?_append (prints : Prints level tree tokens') (front : List Token) :
    (front ++ tokens').getLast? = tokens'.getLast? := by
  obtain ⟨_, last, rfl, -⟩ := prints.exists_last
  rw [← List.append_assoc, List.getLast?_concat, List.getLast?_concat]

theorem fits_group {inside : List Token} {closing : List Char} (blank : IsBlanks closing)
    (fits : Fits inside (closing ++ ')' :: rest)) :
    Fits (inside ++ [⟨closing, .symbol ')'⟩]) rest := by
  refine fits_append.2 ⟨?_, blank, rfl, trivial⟩
  rw [textOf_symbol]
  exact fits

/-- No blanks are in front of a factor that starts at once. -/
theorem exists_front_of_startsFactor (fits : Fits tokens rest)
    (start : startsFactor (textOf tokens) = true) :
    ∃ part more, tokens = ⟨[], part⟩ :: more ∧ startsFactor part.text = true := by
  cases tokens with
  | nil => cases start
  | cons token more =>
    obtain ⟨blanks, part⟩ := token
    obtain ⟨blank, fitsPart, -⟩ := fits
    cases blanks with
    | cons b blanks =>
      have code := isBlank_iff.1 (blank b List.mem_cons_self)
      rw [textOf_cons, Token.text, List.cons_append, List.cons_append, startsFactor_cons,
        isWordStart_iff] at start
      omega
    | nil =>
      obtain ⟨c, others, split, -⟩ := fitsPart.exists_cons
      refine ⟨part, more, rfl, ?_⟩
      rw [textOf_cons, Token.text, split] at start
      rw [split]
      exact start

/-- The tokens of a printed form are told apart, whatever text the last one of them can stand
before. -/
theorem Prints.fits (prints : Prints level tree tokens)
    (ends : ∀ last ∈ tokens.getLast?, last.part.Fits rest) : Fits tokens rest := by
  induction prints generalizing rest with
  | number blank => exact ⟨blank, ends _ rfl, trivial⟩
  | name blank => exact ⟨blank, ends _ rfl, trivial⟩
  | call blank isName argumentPrints blank' ih =>
    refine ⟨blank, ⟨isName, _, textOf_symbol _ _ _ _⟩, by simp, rfl, ?_⟩
    exact fits_group blank' (ih (argumentPrints.last_fits blank' rfl rfl))
  | group loose blank treePrints blank' ih =>
    exact ⟨blank, rfl, fits_group blank' (ih (treePrints.last_fits blank' rfl rfl))⟩
  | negate within blank operandPrints ih =>
    refine ⟨blank, rfl, ih ?_⟩
    rwa [← operandPrints.getLast?_append [_]]
  | @binary _ operator blanks _ _ _ _ within blank leftPrints rightPrints ih ih' =>
    have symbol := operator.isSymbol_symbol
    refine fits_append.2 ⟨?_, blank, symbol, ih' ?_⟩
    · rw [textOf_symbol]
      exact ih (leftPrints.last_fits blank symbol operator.opens_symbol)
    · rwa [List.append_cons, rightPrints.getLast?_append] at ends
  | @juxtapose _ tokens tokens' _ _ within leftPrints rightPrints start apart ih ih' =>
    rw [rightPrints.getLast?_append] at ends
    have fitsFactor := ih' ends
    refine fits_append.2 ⟨ih ?_, fitsFactor⟩
    obtain ⟨front, last, rfl, closes⟩ := leftPrints.exists_last
    obtain ⟨part, more, rfl, startsPart⟩ := exists_front_of_startsFactor fitsFactor start
    intro other same
    rw [List.getLast?_concat] at same
    cases same
    rw [textOf_cons, Token.text, List.nil_append, List.append_assoc]
    exact closes.fits_of_apart fitsFactor.2.1 startsPart
      (apart last List.getLast?_concat ⟨[], part⟩ rfl)

/-! ## Printed forms are read -/

theorem isBlanks_nil : IsBlanks [] := by simp [IsBlanks]

/-- Parentheses make a place for every tree. -/
theorem exists_prints_of_within
    (within : ∀ level, level.rank ≤ tree.level.rank → ∃ tokens, Prints level tree tokens)
    (level : Level) : ∃ tokens, Prints level tree tokens := by
  by_cases tight : level.rank ≤ tree.level.rank
  · exact within level tight
  · obtain ⟨inside, prints⟩ := within .sum (Nat.zero_le _)
    exact ⟨_, .group (not_le.1 tight) isBlanks_nil prints isBlanks_nil⟩

theorem Tree.Printable.exists_prints (printable : tree.Printable) (level : Level) :
    ∃ tokens, Prints level tree tokens := by
  induction tree generalizing level with
  | number value =>
    obtain ⟨mantissa, exponent, denotes⟩ := exists_denotes_iff.2 printable
    exact ⟨_, .number isBlanks_nil denotes⟩
  | name word =>
    rw [← String.ofList_toList (s := word)]
    exact ⟨_, .name isBlanks_nil printable⟩
  | negate operand ih =>
    obtain ⟨tokens, prints⟩ := ih printable .signed
    exact exists_prints_of_within (fun _ within => ⟨_, .negate within isBlanks_nil prints⟩) level
  | binary operator left right ih ih' =>
    obtain ⟨tokens, leftPrints⟩ := ih printable.1 operator.leftLevel
    obtain ⟨tokens', rightPrints⟩ := ih' printable.2 operator.rightLevel
    exact exists_prints_of_within
      (fun _ within => ⟨_, .binary within isBlanks_nil leftPrints rightPrints⟩) level
  | call function argument ih =>
    obtain ⟨inside, prints⟩ := ih printable.2 .sum
    rw [← String.ofList_toList (s := function)]
    exact ⟨_, .call isBlanks_nil printable.1 prints isBlanks_nil⟩

/-- Each tree of names and numbers without a sign is printed, and each of its printed forms is read
as that tree. -/
theorem read_of_prints (printable : tree.Printable) :
    (∃ tokens, Prints .sum tree tokens) ∧ ∀ tokens, Prints .sum tree tokens →
      Tree.read (String.ofList (textOf tokens)) = .ok tree := by
  refine ⟨printable.exists_prints .sum, fun tokens prints => ?_⟩
  have split : (String.ofList (textOf tokens)).toList = textOf tokens ++ [] := by simp
  have isWhite : IsWhite [] := by simp [IsWhite]
  obtain ⟨front, last, whole, closes⟩ := prints.exists_last
  have ends : ∀ other ∈ tokens.getLast?, other.part.Fits [] := by
    intro other same
    rw [whole, List.getLast?_concat] at same
    cases same
    exact closes.fits avoids_nil
  exact Tree.read_of_derives split isWhite prints.derives (prints.fits ends)

/-- A number, a power of π and a difference side by side. -/
theorem read_of_prints_side_by_side :
    Tree.read "-2π^2(x - 1)" = .ok (.binary .multiply
      (.binary .multiply (.negate (.number 2.0)) (.binary .power (.name "π") (.number 2.0)))
      (.binary .subtract (.name "x") (.number 1.0))) := by
  have two : Denotes ['2'] [] 2.0 := denotes_iff.2 ⟨.digit rfl, .none, by decide +kernel⟩
  have one : Denotes ['1'] [] 1.0 := denotes_iff.2 ⟨.digit rfl, .none, by decide +kernel⟩
  have x : IsName ['x'] := .word rfl (by simp)
  have blank : IsBlanks [' '] := by simp [IsBlanks, isBlank]
  have power : Prints .power (.binary .power (.name "π") (.number 2.0)) _ :=
    .binary (le_refl _) isBlanks_nil (.name isBlanks_nil .pi) (.number isBlanks_nil two)
  have difference : Prints .sum (.binary .subtract (.name "x") (.number 1.0)) _ :=
    .binary (le_refl _) blank (.name isBlanks_nil x) (.number blank one)
  have minusTwo : Prints .product (.negate (.number 2.0)) _ :=
    .negate (Nat.le_succ _) isBlanks_nil (.number isBlanks_nil two)
  have group : Prints .power (.binary .subtract (.name "x") (.number 1.0)) _ :=
    .group (by simp [Tree.level, Operator.level, Level.rank]) isBlanks_nil difference isBlanks_nil
  refine (read_of_prints ?_).2 _ (.juxtapose (Nat.zero_le _)
    (.juxtapose (le_refl _) minusTwo power rfl ?_) group rfl ?_)
  · have two' : Binary64.Unsigned 2.0 := exists_denotes_iff.1 ⟨_, _, two⟩
    exact ⟨⟨two', .pi, two'⟩, x, exists_denotes_iff.1 ⟨_, _, one⟩⟩
  · simp [Part.Apart, Part.text]
  · simp [Part.Apart, Part.text]

end Stepwise.Formula
