import Stepwise.Proofs.Formula.Plugging
import Stepwise.Proofs.Formula.Soundness

/-!
# Functions with the name of the variable

Where a function is called that has the name of the variable, the substitution writes the number for
it, and the text is not read as the formula with the number in place of the variable: a letter of
the function's name is missing.

- `tally`: a sum over the names among tokens, as `Tree.tally` is one over those of a tree
- `Telling`: a letter that stands in names only
- `not_read_of_call`: the formula is lost
-/

namespace Stepwise.Formula

variable {v : List Char} {n : Numeral}

/-! ## Sums over the names -/

variable {name function : List Char → Nat}

def Part.tally (name function : List Char → Nat) : Part → Nat
  | .name word => name word
  | .function word => function word
  | _ => 0

/-- A sum over the names of a formula, as `Tree.tally` takes it. -/
def tally (name function : List Char → Nat) (tokens : List Token) : Nat :=
  (tokens.map fun token => token.part.tally name function).sum

@[simp] theorem tally_nil : tally name function [] = 0 := rfl

@[simp] theorem tally_cons (token : Token) (tokens : List Token) :
    tally name function (token :: tokens) =
      token.part.tally name function + tally name function tokens := by simp [tally]

@[simp] theorem tally_append (first second : List Token) :
    tally name function (first ++ second) =
      tally name function first + tally name function second := by simp [tally]

theorem Derives.tally_eq {level : Level} {tokens : List Token} {tree : Tree}
    (derives : Derives level tokens tree) :
    tally name function tokens = tree.tally name function := by
  induction derives with
  | literal | name => simp [Part.tally, Tree.tally]
  | call _ _ _ _ ih => simp [Part.tally, Tree.tally, ih]
  | group _ _ _ ih => simp [Part.tally, ih]
  | base _ ih | unsigned _ ih | factor _ ih | term _ ih => exact ih
  | raise _ _ _ ih ih' => simp [Part.tally, Tree.tally, ih, ih']
  | sign _ mark _ ih =>
    unfold Formula.sign at mark
    split at mark <;> cases mark <;> simp [Part.tally, Tree.tally, ih]
  | multiply _ _ _ _ ih ih' | add _ _ _ _ ih ih' => simp [Part.tally, Tree.tally, ih, ih']
  | juxtapose _ _ _ ih ih' => simp [Tree.tally, ih, ih']

theorem Numeral.tally_tree (n : Numeral) : n.tree.tally name function = 0 := by
  rw [tree]
  split <;> rfl

/-! ## Functions are known -/

theorem isSome_of_known {level : Level} {tokens : List Token} {tree : Tree} {word : List Char}
    {variableName : String} (derives : Derives level tokens tree) (known : tree.Known variableName)
    (called : ∃ token ∈ tokens, token.part = .function word) :
    (Function.ofName? (String.ofList word)).isSome = true := by
  obtain ⟨token, member, function⟩ := called
  have nothing := derives.tally_eq.trans known.tally
  rw [tally, List.sum_eq_zero_iff_forall_eq_nat] at nothing
  have here := nothing _ (List.mem_map_of_mem member)
  rw [function, Part.tally, Tree.unknown] at here
  by_contra other
  simp [other] at here

/-- A known function is told by a letter that is in no number. -/
theorem exists_letter {word : List Char}
    (known : (Function.ofName? (String.ofList word)).isSome = true) :
    ∃ c ∈ word, isWordStart c = true ∧ isExponentMark c = false := by
  have letter : ∀ name ∈ functionNames,
      name.toList.any (fun c => isWordStart c && !isExponentMark c) = true := by decide
  obtain ⟨c, member, telling⟩ := List.any_eq_true.1 (letter _ (isSome_ofName?_iff.1 known))
  rw [String.toList_ofList] at member
  rw [Bool.and_eq_true, Bool.not_eq_true'] at telling
  exact ⟨c, member, telling⟩

/-! ## Counting a letter -/

variable {c : Char} {tokens : List Token} {rest white : List Char}

/-- A letter that is in no number. -/
structure Telling (c : Char) : Prop where
  isLetter : isWordStart c = true
  noMark : isExponentMark c = false

namespace Telling

theorem ne_of_not_letter (telling : Telling c) {d : Char} (other : isWordStart d = false) :
    d ≠ c := by
  rintro rfl
  rw [telling.isLetter] at other
  cases other

theorem count_eq_zero (telling : Telling c) {text : List Char}
    (others : ∀ d ∈ text, isWordStart d = true → isExponentMark d = true) : text.count c = 0 := by
  rw [List.count_eq_zero]
  intro member
  have mark := others c member telling.isLetter
  rw [telling.noMark] at mark
  cases mark

end Telling

theorem IsExponent.all {text : List Char} (isExponent : IsExponent text) :
    ∀ d ∈ text, isWordStart d = true → isExponentMark d = true := by
  cases isExponent with
  | none => simp
  | @some mark sign digits isMark isSign nonempty all =>
    intro d member start
    simp only [List.cons_append, List.mem_cons, List.mem_append] at member
    rcases member with rfl | signed | digit
    · exact isMark
    · rcases isSign with rfl | rfl | rfl
      · cases signed
      · rw [List.mem_singleton.1 signed] at start
        cases start
      · rw [List.mem_singleton.1 signed] at start
        cases start
    · have code := isDigit_iff.1 (all d digit)
      rw [isWordStart_iff] at start
      omega

theorem IsMantissa.no_letter {text : List Char} (isMantissa : IsMantissa text) :
    ∀ d ∈ text, isWordStart d = true → isExponentMark d = true := by
  intro d member start
  have code := isNumeralPart_iff.1 (isMantissa.all d member)
  rw [isWordStart_iff] at start
  omega

theorem Part.Fits.count_text (telling : Telling c) {part : Part} (fits : part.Fits rest) :
    part.text.count c = part.tally (List.count c) (List.count c) := by
  cases part with
  | literal mantissa exponent =>
    obtain ⟨isMantissa, isExponent, -⟩ := fits
    rw [Part.text, List.count_append, telling.count_eq_zero isMantissa.no_letter,
      telling.count_eq_zero isExponent.all]
    rfl
  | name | function => rfl
  | symbol d =>
    have code := isSymbol_iff.1 fits
    apply telling.count_eq_zero
    intro e member start
    rw [List.mem_singleton.1 member, isWordStart_iff] at start
    omega

theorem Telling.count_blanks (telling : Telling c) {blanks : List Char}
    (blank : ∀ b ∈ blanks, isBlank b = true) : blanks.count c = 0 := by
  apply telling.count_eq_zero
  intro d member start
  have code := isBlank_iff.1 (blank d member)
  rw [isWordStart_iff] at start
  omega

theorem Telling.count_white (telling : Telling c) (isWhite : IsWhite white) :
    white.count c = 0 := by
  apply telling.count_eq_zero
  intro d member start
  have code := toNat_of_whiteSpace (isWhite d member)
  rw [isWordStart_iff] at start
  omega

/-- In a formula the letter stands in the names only. -/
theorem Fits.count_textOf (telling : Telling c) (fits : Fits tokens rest) :
    (textOf tokens).count c = tally (List.count c) (List.count c) tokens := by
  induction tokens with
  | nil => rfl
  | cons token tokens ih =>
    obtain ⟨blank, fitsPart, fitsTokens⟩ := fits
    rw [textOf_cons, Token.text, List.count_append, List.count_append, telling.count_blanks blank,
      fitsPart.count_text telling, ih fitsTokens, tally_cons, Nat.zero_add]

theorem Numeral.count_text (telling : Telling c) (n : Numeral) : n.text.count c = 0 := by
  have digits := telling.count_eq_zero n.isMantissa.no_letter
  have minus := telling.ne_of_not_letter (d := '-') rfl
  rw [text]
  split <;> simp [digits, minus]

/-! ## A function with the name of the variable -/

/-- Counts a letter, but not in the variable. -/
def countElsewhere (v : List Char) (c : Char) (word : List Char) : Nat :=
  if word = v then 0 else word.count c

def Lexeme.countElsewhere (v : List Char) (c : Char) : Lexeme → Nat
  | .word text => Formula.countElsewhere v c text
  | piece => piece.text.count c

theorem count_substitutePieces {value : List Char} (telling : Telling c)
    (nothing : value.count c = 0) (previous : Option Char) (pieces : List Lexeme) :
    (substitutePieces v value previous pieces).count c =
      (pieces.map (Lexeme.countElsewhere v c)).sum := by
  have inserted (previous : Option Char) : (insertion value previous).count c = 0 := by
    rw [insertion]
    split
    next =>
      have opening := telling.ne_of_not_letter (d := '(') rfl
      have closing := telling.ne_of_not_letter (d := ')') rfl
      simp [nothing, opening, closing]
    next => exact nothing
  induction pieces generalizing previous with
  | nil => rfl
  | cons piece pieces ih =>
    rw [substitutePieces, List.count_append, ih, List.map_cons, List.sum_cons]
    congr 1
    cases piece with
    | word word =>
      by_cases same : word = v
      · simp [replacement, Lexeme.countElsewhere, countElsewhere, same, inserted]
      · simp [replacement, Lexeme.countElsewhere, countElsewhere, same]
    | numeral | other => rfl

theorem sum_others {cs : List Char} (nothing : cs.count c = 0) :
    ((cs.map Lexeme.other).map (Lexeme.countElsewhere v c)).sum = 0 := by
  induction cs with
  | nil => rfl
  | cons d cs ih =>
    have both : cs.count c = 0 ∧ [d].count c = 0 := by
      rw [← List.singleton_append, List.count_append] at nothing
      omega
    rw [List.map_cons, List.map_cons, List.sum_cons, ih both.1]
    exact both.2

theorem Fits.sum_lexemes (telling : Telling c) (fits : Fits tokens rest) :
    ((tokens.flatMap Token.lexemes).map (Lexeme.countElsewhere v c)).sum =
      tally (countElsewhere v c) (countElsewhere v c) tokens := by
  have pi : ['π'].count c = 0 := by
    simp [telling.ne_of_not_letter (d := 'π') rfl]
  induction tokens with
  | nil => rfl
  | cons token tokens ih =>
    obtain ⟨blank, fitsPart, fitsTokens⟩ := fits
    have here : token.part.lexeme.countElsewhere v c =
        token.part.tally (countElsewhere v c) (countElsewhere v c) := by
      cases part : token.part with
      | literal | symbol =>
        rw [part] at fitsPart
        exact fitsPart.count_text telling
      | name word | function word =>
        by_cases isPi : word = ['π']
        · simp [Part.lexeme, Lexeme.countElsewhere, Part.tally, countElsewhere, isPi,
            Lexeme.text, pi]
        · simp [Part.lexeme, Lexeme.countElsewhere, Part.tally, isPi]
    rw [List.flatMap_cons, List.map_append, List.sum_append, ih fitsTokens, Token.lexemes,
      List.map_append, List.sum_append, sum_others (telling.count_blanks blank), tally_cons]
    simp [here]

theorem tally_le_tally {name f g : List Char → Nat} (le : ∀ word, f word ≤ g word)
    (tokens : List Token) : tally name f tokens ≤ tally name g tokens := by
  induction tokens with
  | nil => exact Nat.le_refl _
  | cons token tokens ih =>
    rw [tally_cons, tally_cons]
    apply Nat.add_le_add _ ih
    cases token.part with
    | function word => exact le word
    | literal | name | symbol => exact Nat.le_refl _

theorem tally_lt_tally {name f g : List Char → Nat} (le : ∀ word, f word ≤ g word)
    {word : List Char} (lt : f word < g word) {tokens : List Token}
    (called : ∃ token ∈ tokens, token.part = .function word) :
    tally name f tokens < tally name g tokens := by
  obtain ⟨token, member, function⟩ := called
  obtain ⟨first, second, rfl⟩ := List.append_of_mem member
  have before : tally name f first ≤ tally name g first := tally_le_tally le first
  have behind : tally name f second ≤ tally name g second := tally_le_tally le second
  simp only [tally_append, tally_cons, function, Part.tally]
  omega

/-- Where a function has the name of the variable, the text is not read as the formula with the
number in place of the variable. -/
theorem not_read_of_call {source : String} {tree : Tree} {variableName : String}
    (split : source.toList = textOf tokens ++ white) (isWhite : IsWhite white)
    (derives : Derives .sum tokens tree) (fits : Fits tokens white)
    (known : tree.Known variableName) (called : ∃ token ∈ tokens, token.part = .function v) :
    Tree.read (String.ofList (substitutePieces v n.text none (lexemes source.toList))) ≠
      .ok (tree.replace (String.ofList v) n.tree) := by
  intro read
  obtain ⟨c, member, isLetter, noMark⟩ := exists_letter (isSome_of_known derives known called)
  have telling : Telling c := ⟨isLetter, noMark⟩
  obtain ⟨tokens', white', split', isWhite', derives', fits'⟩ := Tree.derives_of_read read
  -- Counted in the text: the letter is missing where the variable was, called or not.
  have written : (textOf tokens' ++ white').count c =
      tally (countElsewhere v c) (countElsewhere v c) tokens := by
    rw [← split', String.toList_ofList, count_substitutePieces telling (n.count_text telling),
      split, lexemes_textOf fits, List.map_append, List.sum_append, fits.sum_lexemes telling,
      lexemes_of_isWhite isWhite, sum_others (telling.count_white isWhite), Nat.add_zero]
  -- Counted in the tree that is read: the function is still there.
  have named : (textOf tokens' ++ white').count c =
      tally (countElsewhere v c) (List.count c) tokens := by
    rw [List.count_append, fits'.count_textOf telling, telling.count_white isWhite', Nat.add_zero,
      derives'.tally_eq, Tree.tally_replace _ n.tally_tree, derives.tally_eq]
    rfl
  have le (word : List Char) : countElsewhere v c word ≤ word.count c := by
    rw [countElsewhere]
    split <;> simp
  have lt : countElsewhere v c v < v.count c := by
    rw [countElsewhere, if_pos rfl]
    exact List.count_pos_iff.2 member
  have lost : tally (countElsewhere v c) (countElsewhere v c) tokens <
      tally (countElsewhere v c) (List.count c) tokens := tally_lt_tally le lt called
  omega

end Stepwise.Formula
