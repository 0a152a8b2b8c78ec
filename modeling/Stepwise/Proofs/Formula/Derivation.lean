import Stepwise.Formula.Reader
import Stepwise.Proofs.Formula.Literals

/-!
# Derivations

The grammar of formulas, over tokens. It is free of context; what a token needs of the text behind
it, so that no reader takes more or less of it, is a condition of its own.

- `Token`: a part of a formula with the blanks before it
- `Fits`: whether the tokens of a text are told apart with a given text behind them
- `Derives`: the grammar, level by level
- `Derives.truncates`: tokens are told apart without the text behind them as well
- `Derives.named`: a tree that is derived has names as they are read
-/

namespace Stepwise.Formula

/-! ## Tokens -/

/-- A part of a formula. A name before an argument is a function. -/
inductive Part where
  | literal (mantissa exponent : List Char)
  | name (word : List Char)
  | function (word : List Char)
  | symbol (c : Char)

def Part.text : Part → List Char
  | .literal mantissa exponent => mantissa ++ exponent
  | .name word => word
  | .function word => word
  | .symbol c => [c]

/-- A part with the blanks before it. -/
structure Token where
  blanks : List Char
  part : Part

def Token.text (token : Token) : List Char := token.blanks ++ token.part.text

def textOf (tokens : List Token) : List Char := tokens.flatMap Token.text

@[simp] theorem textOf_nil : textOf [] = [] := rfl

@[simp] theorem textOf_cons (token : Token) (tokens : List Token) :
    textOf (token :: tokens) = token.text ++ textOf tokens := rfl

@[simp] theorem textOf_append (first second : List Token) :
    textOf (first ++ second) = textOf first ++ textOf second := List.flatMap_append

theorem textOf_symbol (blanks : List Char) (c : Char) (tokens : List Token) (rest : List Char) :
    textOf (⟨blanks, .symbol c⟩ :: tokens) ++ rest = blanks ++ c :: (textOf tokens ++ rest) := by
  simp [Token.text, Part.text]

/-! ## What may follow a token -/

/-- The symbols of formulas. -/
def isSymbol (c : Char) : Bool := ['+', '-', '*', '/', '^', '(', ')'].contains c

def opens (c : Char) : Bool := c == '('

theorem isSymbol_iff {c : Char} : isSymbol c = true ↔
    c.toNat = 43 ∨ c.toNat = 45 ∨ c.toNat = 42 ∨ c.toNat = 47 ∨ c.toNat = 94 ∨ c.toNat = 40 ∨
      c.toNat = 41 := by
  simp only [isSymbol, List.contains_eq_mem, List.mem_cons, List.not_mem_nil, decide_eq_true_eq,
    or_false, eq_iff_toNat_eq]
  exact Iff.rfl

theorem opens_iff {c : Char} : opens c = true ↔ c.toNat = 40 := by
  rw [opens, beq_iff_eq, eq_iff_toNat_eq]
  exact Iff.rfl

theorem isBlank_eq_false_of_isSymbol {c : Char} (symbol : isSymbol c = true) :
    isBlank c = false := by
  have code := isSymbol_iff.1 symbol
  rw [← Bool.not_eq_true, isBlank_iff]
  omega

/-- What has to be true of a part and the text behind it. -/
def Part.Fits : Part → List Char → Prop
  | .literal mantissa exponent, rest =>
    IsMantissa mantissa ∧ IsExponent exponent ∧ Avoids isNumeralPart rest ∧
      (exponent = [] → (splitExponent rest).1 = [])
  | .name word, rest =>
    IsName word ∧ (word = ['π'] ∨ Avoids isWordPart rest) ∧ Avoids isNumeralPart rest ∧
      Avoids opens rest
  | .function word, rest => IsName word ∧ ∃ inside, rest = '(' :: inside
  | .symbol c, _ => isSymbol c = true

/-- The tokens, with `rest` behind them, are told apart as they are. -/
def Fits : List Token → List Char → Prop
  | [], _ => True
  | token :: tokens, rest =>
    (∀ c ∈ token.blanks, isBlank c = true) ∧ token.part.Fits (textOf tokens ++ rest) ∧
      Fits tokens rest

theorem fits_append {first second : List Token} {rest : List Char} :
    Fits (first ++ second) rest ↔ Fits first (textOf second ++ rest) ∧ Fits second rest := by
  induction first with
  | nil => simp [Fits]
  | cons token first ih => simp [Fits, ih, and_assoc]

theorem Part.Fits.exists_cons {part : Part} (fits : part.Fits rest) :
    ∃ c more, part.text = c :: more ∧
      ((isWordStart c = true ∨ isNumeralPart c = true ∨ c.toNat = 960) ∨ part = .symbol c) := by
  have name {word : List Char} (isName : IsName word) : ∃ c more, word = c :: more ∧
      (isWordStart c = true ∨ isNumeralPart c = true ∨ c.toNat = 960) := by
    cases isName with
    | pi => exact ⟨_, _, rfl, .inr (.inr rfl)⟩
    | word start => exact ⟨_, _, rfl, .inl start⟩
  cases part with
  | literal mantissa exponent =>
    obtain ⟨isMantissa, -⟩ := fits
    cases mantissa with
    | nil => exact absurd rfl isMantissa.ne_nil
    | cons c more =>
      exact ⟨c, _, rfl, .inl (.inr (.inl (isMantissa.all c List.mem_cons_self)))⟩
  | name word =>
    obtain ⟨c, more, split, kind⟩ := name fits.1
    exact ⟨c, more, split, .inl kind⟩
  | function word =>
    obtain ⟨c, more, split, kind⟩ := name fits.1
    exact ⟨c, more, split, .inl kind⟩
  | symbol c => exact ⟨c, [], rfl, .inr rfl⟩

theorem Part.Fits.text_ne_nil {part : Part} (fits : part.Fits rest) : part.text ≠ [] := by
  obtain ⟨c, more, split, -⟩ := fits.exists_cons
  simp [split]

/-! ## The grammar -/

/-- The levels of the grammar. -/
inductive Level where
  | sum
  | product
  | signed
  | power
  | atom

/-- The tokens of a formula on some level, and the tree that they stand for. -/
inductive Derives : Level → List Token → Tree → Prop where
  | literal (blanks : List Char) {mantissa exponent : List Char} {value : Float}
    (denotes : Denotes mantissa exponent value) :
    Derives .atom [⟨blanks, .literal mantissa exponent⟩] (.number value)
  | name (blanks word : List Char) :
    Derives .atom [⟨blanks, .name word⟩] (.name (String.ofList word))
  | call (blanks word closing : List Char) {inside : List Token} {argument : Tree}
    (sum : Derives .sum inside argument) :
    Derives .atom
      (⟨blanks, .function word⟩ :: ⟨[], .symbol '('⟩ :: inside ++ [⟨closing, .symbol ')'⟩])
      (.call (String.ofList word) argument)
  | group (blanks closing : List Char) {inside : List Token} {tree : Tree}
    (sum : Derives .sum inside tree) :
    Derives .atom (⟨blanks, .symbol '('⟩ :: inside ++ [⟨closing, .symbol ')'⟩]) tree
  | base {tokens : List Token} {tree : Tree} (atom : Derives .atom tokens tree) :
    Derives .power tokens tree
  | raise (blanks : List Char) {tokens tokens' : List Token} {base exponent : Tree}
    (atom : Derives .atom tokens base) (signed : Derives .signed tokens' exponent) :
    Derives .power (tokens ++ ⟨blanks, .symbol '^'⟩ :: tokens') (.binary .power base exponent)
  | unsigned {tokens : List Token} {tree : Tree} (power : Derives .power tokens tree) :
    Derives .signed tokens tree
  | sign (blanks : List Char) {c : Char} {apply : Tree → Tree} {tokens : List Token}
    {operand : Tree} (mark : sign c = some apply) (signed : Derives .signed tokens operand) :
    Derives .signed (⟨blanks, .symbol c⟩ :: tokens) (apply operand)
  | factor {tokens : List Token} {tree : Tree} (signed : Derives .signed tokens tree) :
    Derives .product tokens tree
  | multiply (blanks : List Char) {c : Char} {operator : Operator} {tokens tokens' : List Token}
    {left right : Tree} (meaning : productOperator c = some operator)
    (product : Derives .product tokens left) (signed : Derives .signed tokens' right) :
    Derives .product (tokens ++ ⟨blanks, .symbol c⟩ :: tokens') (.binary operator left right)
  | juxtapose {tokens tokens' : List Token} {left right : Tree}
    (product : Derives .product tokens left) (power : Derives .power tokens' right)
    (start : startsFactor (textOf tokens') = true) :
    Derives .product (tokens ++ tokens') (.binary .multiply left right)
  | term {tokens : List Token} {tree : Tree} (product : Derives .product tokens tree) :
    Derives .sum tokens tree
  | add (blanks : List Char) {c : Char} {operator : Operator} {tokens tokens' : List Token}
    {left right : Tree} (meaning : sumOperator c = some operator)
    (sum : Derives .sum tokens left) (product : Derives .product tokens' right) :
    Derives .sum (tokens ++ ⟨blanks, .symbol c⟩ :: tokens') (.binary operator left right)

/-! ## Texts that end earlier -/

/-- The tokens are still told apart if the text behind them ends earlier. -/
def Truncates (tokens : List Token) : Prop :=
  ∀ front rest, Fits tokens (front ++ rest) → Fits tokens front

theorem Truncates.append {first second : List Token} (before : Truncates first)
    (behind : Truncates second) : Truncates (first ++ second) := by
  intro front rest fits
  obtain ⟨fits, fits'⟩ := fits_append.1 fits
  rw [← List.append_assoc] at fits
  exact fits_append.2 ⟨before _ _ fits, behind _ _ fits'⟩

theorem truncates_symbol (blanks : List Char) (c : Char) : Truncates [⟨blanks, .symbol c⟩] :=
  fun _ _ fits => fits

theorem Derives.truncates {level : Level} {tokens : List Token} {tree : Tree}
    (derives : Derives level tokens tree) : Truncates tokens := by
  induction derives with
  | @literal blanks mantissa exponent value denotes =>
    rintro front rest ⟨blank, fits, -⟩
    obtain ⟨isMantissa, isExponent, avoids, absent⟩ :
      (Part.literal mantissa exponent).Fits (front ++ rest) := fits
    exact ⟨blank, ⟨isMantissa, isExponent, avoids.of_append,
      fun none => splitExponent_of_append (absent none)⟩, trivial⟩
  | name blanks word =>
    rintro front rest ⟨blank, fits, -⟩
    obtain ⟨isName, ends, avoids, closed⟩ : (Part.name word).Fits (front ++ rest) := fits
    exact ⟨blank, ⟨isName, ends.imp_right Avoids.of_append, avoids.of_append, closed.of_append⟩,
      trivial⟩
  | call blanks word closing sum ih =>
    have opening : Truncates [⟨blanks, .function word⟩, ⟨[], .symbol '('⟩] :=
      fun _ _ ⟨blank, ⟨isName, _⟩, symbol⟩ => ⟨blank, ⟨isName, _, rfl⟩, symbol⟩
    exact (opening.append ih).append (truncates_symbol _ _)
  | group blanks closing sum ih =>
    exact ((truncates_symbol blanks '(').append ih).append (truncates_symbol _ _)
  | base _ ih | unsigned _ ih | factor _ ih | term _ ih => exact ih
  | raise _ _ _ ih ih' | multiply _ _ _ _ ih ih' | add _ _ _ _ ih ih' =>
    exact ih.append ((truncates_symbol _ _).append ih')
  | sign _ _ _ ih => exact (truncates_symbol _ _).append ih
  | juxtapose _ _ _ ih ih' => exact ih.append ih'

/-! ## Names in trees -/

/-- The names of a tree are names as they are read. -/
def Tree.Named : Tree → Prop
  | .number _ => True
  | .name word => IsName word.toList
  | .negate operand => operand.Named
  | .binary _ left right => left.Named ∧ right.Named
  | .call function argument => IsName function.toList ∧ argument.Named

theorem named_of_sign {c : Char} {apply : Tree → Tree} {tree : Tree}
    (mark : sign c = some apply) (named : tree.Named) : (apply tree).Named := by
  unfold sign at mark
  split at mark
  · cases mark
    exact named
  · cases mark
    exact named
  · cases mark

theorem Derives.named {level : Level} {tokens : List Token} {tree : Tree} {rest : List Char}
    (derives : Derives level tokens tree) (fits : Fits tokens rest) : tree.Named := by
  induction derives generalizing rest with
  | literal => trivial
  | name blanks word =>
    obtain ⟨-, ⟨isName, -⟩, -⟩ := fits
    rwa [Tree.Named, String.toList_ofList]
  | call blanks word closing sum ih =>
    obtain ⟨-, ⟨isName, -⟩, -, -, behind⟩ := fits
    refine ⟨?_, ih (fits_append.1 behind).1⟩
    rwa [String.toList_ofList]
  | group blanks closing sum ih =>
    obtain ⟨-, -, behind⟩ := fits
    exact ih (fits_append.1 behind).1
  | base _ ih | unsigned _ ih | factor _ ih | term _ ih => exact ih fits
  | raise _ _ _ ih ih' | multiply _ _ _ _ ih ih' | add _ _ _ _ ih ih' =>
    obtain ⟨first, -, -, second⟩ := fits_append.1 fits
    exact ⟨ih first, ih' second⟩
  | sign blanks mark _ ih =>
    obtain ⟨-, -, behind⟩ := fits
    exact named_of_sign mark (ih behind)
  | juxtapose _ _ _ ih ih' =>
    obtain ⟨first, second⟩ := fits_append.1 fits
    exact ⟨ih first, ih' second⟩

/-! ## White space -/

/-- What may be at the end of a text without belonging to the formula. -/
def IsWhite (text : List Char) : Prop := ∀ c ∈ text, Text.whiteSpace.contains c = true

theorem isWhite_nil : IsWhite [] := nofun

theorem toNat_of_whiteSpace {c : Char} (white : Text.whiteSpace.contains c = true) :
    c.toNat ≤ 32 ∨ c.toNat = 133 ∨ c.toNat = 160 ∨ 5760 ≤ c.toNat := by
  obtain ⟨range, member, low, high⟩ := Text.CharSet.contains_iff.1 white
  simp only [Text.whiteSpace, List.mem_cons, List.not_mem_nil, or_false] at member
  rcases member with rfl | rfl | rfl | rfl | rfl | rfl | rfl | rfl | rfl | rfl <;>
    (dsimp only at low high; omega)

end Stepwise.Formula
