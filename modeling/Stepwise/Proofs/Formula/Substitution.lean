import Stepwise.NumberFormat
import Stepwise.Proofs.Decimal.FixedText
import Stepwise.Proofs.Formula.Calls
import Stepwise.Proofs.Formula.Completeness
import Stepwise.Proofs.Formula.Neighbours
import Stepwise.Proofs.Formula.Replacement

/-!
# Substitution in a formula

The text of a formula with a number in place of its variable is read as the tree of the formula with
the number in place of its variable, and has the value of the formula at that number, exactly where
the number does not clash.
-/

namespace Stepwise.Formula

/-- The tree of a number as it is written for the variable. -/
def numberTree (value : String) : Tree :=
  match value.toList with
  | '-' :: digits => .negate (.number (literalValue digits))
  | digits => .number (literalValue digits)

/-- The number itself. -/
def numberValue (value : String) : Float :=
  match value.toList with
  | '-' :: digits => -literalValue digits
  | digits => literalValue digits

/-- The places at which the variable stands leave a number what it is. -/
def Substitutable (source variableName value : String) : Prop :=
  clashes variableName.toList (value.toList.head? == some '-') (lexemes source.toList) = false

theorem isName_of_isIdentifier {name : String} (identifier : isIdentifier name = true) :
    IsName name.toList ∧ name.toList ≠ ['π'] := by
  rw [isIdentifier] at identifier
  split at identifier
  next => cases identifier
  next first rest split =>
    rw [Bool.and_eq_true, List.all_eq_true] at identifier
    obtain ⟨start, parts⟩ := identifier
    rw [split]
    refine ⟨.word start parts, ?_⟩
    intro pi
    cases pi
    cases start

theorem exists_of_parse {source variableName : String} {formula : Formula}
    (parsed : Formula.parse source variableName = .ok formula) :
    ∃ tree term, Tree.read source = .ok tree ∧ tree.resolve variableName = .ok term ∧
      formula = ⟨source, variableName, term⟩ := by
  rw [Formula.parse] at parsed
  cases read : Tree.read source with
  | error =>
    rw [read] at parsed
    cases parsed
  | ok tree =>
    cases resolved : tree.resolve variableName with
    | error =>
      rw [read] at parsed
      simp only [bind, Except.bind, resolved] at parsed
      cases parsed
    | ok term =>
      rw [read] at parsed
      simp only [bind, Except.bind, resolved] at parsed
      cases parsed
      exact ⟨tree, term, rfl, resolved, rfl⟩

theorem parse_eq {source variableName : String} {tree : Tree} {term : Term}
    (read : Tree.read source = .ok tree) (resolved : tree.resolve variableName = .ok term) :
    Formula.parse source variableName = .ok ⟨source, variableName, term⟩ := by
  rw [Formula.parse, read]
  simp only [bind, Except.bind, resolved]
  rfl

/-! ## Reading the text -/

variable {source variableName : String} {tree : Tree} {n : Numeral}

/-- The text with the number in place of the variable. -/
theorem toList_substitute {tokens : List Token} {white : List Char}
    (notPi : variableName.toList ≠ ['π']) (split : source.toList = textOf tokens ++ white)
    (isWhite : IsWhite white) (fits : Fits tokens white)
    (noCall : ∀ token ∈ tokens, token.part ≠ .function variableName.toList) :
    (substitute source variableName (String.ofList n.text)).toList =
      textOf (plugTokens variableName.toList n none tokens) ++ white := by
  rw [substitute, String.toList_ofList, String.toList_ofList, split, lexemes_textOf fits,
    lexemes_of_isWhite isWhite, substitutePieces_tokens notPi noCall,
    ← List.append_nil (white.map _), substitutePieces_others, substitutePieces, List.append_nil]

theorem read_substitute (identifier : isIdentifier variableName = true)
    (read : Tree.read source = .ok tree)
    (clear : clashes variableName.toList n.negative (lexemes source.toList) = false) :
    Tree.read (substitute source variableName (String.ofList n.text)) =
      .ok (tree.replace variableName n.tree) := by
  obtain ⟨isName, notPi⟩ := isName_of_isIdentifier identifier
  obtain ⟨tokens, white, split, isWhite, derives, fits⟩ := Tree.derives_of_read read
  rw [split] at clear
  have noCall := noCall_of_clear notPi fits clear
  have derived := derives_plugTokens isName notPi derives ⟨fits, clear⟩ none
  rw [String.ofList_toList] at derived
  exact Tree.read_of_derives (toList_substitute notPi split isWhite fits noCall) isWhite derived
    (fits_plugTokens isName notPi isWhite fits clear none)

theorem not_read_substitute (identifier : isIdentifier variableName = true)
    (read : Tree.read source = .ok tree) (known : tree.Known variableName) (pointed : n.Pointed)
    (clashing : clashes variableName.toList n.negative (lexemes source.toList) = true) :
    Tree.read (substitute source variableName (String.ofList n.text)) ≠
      .ok (tree.replace variableName n.tree) := by
  obtain ⟨isName, notPi⟩ := isName_of_isIdentifier identifier
  obtain ⟨tokens, white, split, isWhite, derives, fits⟩ := Tree.derives_of_read read
  by_cases called : ∃ token ∈ tokens, token.part = .function variableName.toList
  · have misread := not_read_of_call (n := n) split isWhite derives fits known called
    rw [String.ofList_toList] at misread
    rw [substitute, String.toList_ofList]
    exact misread
  · have noCall : ∀ token ∈ tokens, token.part ≠ .function variableName.toList :=
      fun token member same => called ⟨token, member, same⟩
    intro misread
    obtain ⟨tokens', white', split', isWhite', derives', fits'⟩ := Tree.derives_of_read misread
    -- A negative number behind π makes a call of it, but there is no such function.
    have noPi : ∀ token ∈ tokens', token.part ≠ .function ['π'] := by
      intro token member same
      have other := isSome_of_known derives' (known.replace (n.known_tree variableName))
        ⟨token, member, same⟩
      revert other
      decide
    have chain := fits'.isChain isWhite' noPi
    rw [← split', toList_substitute notPi split isWhite fits noCall] at chain
    rw [split] at clashing
    exact not_isChain_plugTokens isName notPi pointed isWhite fits noCall clashing none chain

/-! ## Numbers of a fixed format -/

theorem exists_numeral {x : Float} (finite : x.isFinite = true) {format : FixedPlaces}
    (places : 0 < format.places) :
    ∃ n : Numeral, n.Pointed ∧ format.text x = String.ofList n.text := by
  obtain ⟨negative, whole, part, split, nonempty, -, all⟩ := Decimal.exists_fixedText finite places
  have isMantissa : IsMantissa (whole ++ '.' :: part) := .pointed (by simp [nonempty]) all
  refine ⟨⟨negative, _, isMantissa⟩, ⟨whole, part, rfl, nonempty, ?_⟩, ?_⟩
  · exact fun c member => all c (List.mem_append_left _ member)
  · rw [String.ext_iff, String.toList_ofList, FixedPlaces.text, split]
    rfl

theorem Numeral.head?_beq_minus (n : Numeral) : (n.text.head? == some '-') = n.negative := by
  rw [Bool.eq_iff_iff, beq_iff_eq, n.head?_text]

theorem Numeral.not_minus (n : Numeral) (rest : List Char) : n.digits ≠ '-' :: rest := by
  intro split
  have code := isNumeralPart_iff.1 (n.isMantissa.all '-' (by simp [split]))
  revert code
  decide

theorem numberTree_text (n : Numeral) : numberTree (String.ofList n.text) = n.tree := by
  rw [numberTree, Numeral.tree, String.toList_ofList, Numeral.text]
  cases n.negative with
  | true => rfl
  | false =>
    simp only [Bool.false_eq_true, if_false]
    split
    next rest split => exact absurd split (n.not_minus rest)
    next => rfl

theorem exists_eval_tree (n : Numeral) (variableName : String) :
    ∃ term, n.tree.resolve variableName = .ok term ∧
      ∀ y, term.eval y = .ok (numberValue (String.ofList n.text)) := by
  rw [numberValue, Numeral.tree, String.toList_ofList, Numeral.text]
  cases n.negative with
  | true => exact ⟨_, rfl, fun _ => rfl⟩
  | false =>
    simp only [Bool.false_eq_true, if_false]
    split
    next rest split => exact absurd split (n.not_minus rest)
    next => exact ⟨_, rfl, fun _ => rfl⟩

/-- A number that is written for the variable of a formula is read as the value of the variable, and
the text has the value of the formula at that number, exactly where the number does not clash. -/
theorem read_substitute_iff {formula : Formula} {x : Float} {format : FixedPlaces}
    (identifier : isIdentifier variableName = true)
    (parsed : Formula.parse source variableName = .ok formula) (finite : x.isFinite = true)
    (places : 0 < format.places) :
    ∃ tree, Tree.read source = .ok tree ∧
      (Substitutable source variableName (format.text x) ↔
        Tree.read (substitute source variableName (format.text x)) =
            .ok (tree.replace variableName (numberTree (format.text x))) ∧
          (∀ other, ∃ formula',
            Formula.parse (substitute source variableName (format.text x)) other = .ok formula') ∧
          ∃ formula',
            Formula.parse (substitute source variableName (format.text x)) variableName =
                .ok formula' ∧
              ∀ y, formula'.eval y = formula.eval (numberValue (format.text x))) := by
  obtain ⟨n, pointed, text⟩ := exists_numeral finite places
  obtain ⟨tree, term, read, resolved, rfl⟩ := exists_of_parse parsed
  have known : tree.Known variableName := Tree.known_iff.2 ⟨term, resolved⟩
  refine ⟨tree, read, ?_⟩
  rw [Substitutable, text, numberTree_text, String.toList_ofList, n.head?_beq_minus]
  constructor
  · intro clear
    have replaced := read_substitute identifier read clear
    obtain ⟨value, valueResolved, valued⟩ := exists_eval_tree n variableName
    obtain ⟨term', resolved', same⟩ := Tree.exists_eval_replace resolved valueResolved valued
    refine ⟨replaced, fun other => ?_, _, parse_eq replaced resolved', same⟩
    obtain ⟨term'', resolved''⟩ := Tree.known_iff.1 (known.replace (n.known_tree other))
    exact ⟨_, parse_eq replaced resolved''⟩
  · rintro ⟨replaced, -⟩
    by_contra clashing
    rw [Bool.not_eq_false] at clashing
    exact not_read_substitute identifier read known pointed clashing replaced

theorem read_two_x :
    Tree.read "2x" = .ok (.binary .multiply (.number (literalValue ['2'])) (.name "x")) := by
  have derives : Derives .sum [⟨[], .literal ['2'] []⟩, ⟨[], .name ['x']⟩]
      (.binary .multiply (.number (literalValue ['2'])) (.name "x")) :=
    .term (.juxtapose (.factor (.unsigned (.base
      (.literal [] (denotes_literalValue (.digit rfl) .none)))))
      (.base (.name [] ['x'])) rfl)
  have literal : (Part.literal ['2'] []).Fits ['x'] :=
    ⟨.digit rfl, .none, avoids_cons.2 rfl, fun _ => rfl⟩
  have name : (Part.name ['x']).Fits [] :=
    ⟨.letter rfl, .inr avoids_nil, avoids_nil, avoids_nil⟩
  exact Tree.read_of_derives rfl isWhite_nil derives ⟨by simp, literal, by simp, name, trivial⟩

/-- In `2x` the number stands for the variable. -/
theorem read_substitute_two_x : ∃ tree, Tree.read "2x" = .ok tree ∧
    Tree.read (substitute "2x" "x" (FixedPlaces.standard.text 1.5)) =
      .ok (tree.replace "x" (numberTree (FixedPlaces.standard.text 1.5))) := by
  have clear : Substitutable "2x" "x" (FixedPlaces.standard.text 1.5) := by
    rw [Substitutable]
    decide +kernel
  have identifier : isIdentifier "x" = true := by decide
  have finite : (1.5 : Float).isFinite = true := by decide +kernel
  have places : 0 < FixedPlaces.standard.places := by decide
  obtain ⟨tree, read, means⟩ :=
    read_substitute_iff identifier (parse_eq read_two_x rfl) finite places
  exact ⟨tree, read, (means.1 clear).1⟩

theorem read_pi_x :
    Tree.read "πx" = .ok (.binary .multiply (.name "π") (.name "x")) := by
  have derives : Derives .sum [⟨[], .name ['π']⟩, ⟨[], .name ['x']⟩]
      (.binary .multiply (.name "π") (.name "x")) :=
    .term (.juxtapose (.factor (.unsigned (.base (.name [] ['π'])))) (.base (.name [] ['x'])) rfl)
  have letter : (Part.name ['π']).Fits ['x'] :=
    ⟨.pi, .inl rfl, avoids_cons.2 rfl, avoids_cons.2 rfl⟩
  have name : (Part.name ['x']).Fits [] :=
    ⟨.letter rfl, .inr avoids_nil, avoids_nil, avoids_nil⟩
  exact Tree.read_of_derives rfl isWhite_nil derives ⟨by simp, letter, by simp, name, trivial⟩

/-- In `πx` it does not, since a number directly behind π is left over. -/
theorem not_read_substitute_pi_x : ∃ tree formula, Tree.read "πx" = .ok tree ∧
    Formula.parse "πx" "x" = .ok formula ∧
    Tree.read (substitute "πx" "x" (FixedPlaces.standard.text 1.5)) ≠
      .ok (tree.replace "x" (numberTree (FixedPlaces.standard.text 1.5))) := by
  refine ⟨_, _, read_pi_x, parse_eq read_pi_x rfl, ?_⟩
  have finite : (1.5 : Float).isFinite = true := by decide +kernel
  have places : 0 < FixedPlaces.standard.places := by decide
  have known : Tree.Known "x" (.binary .multiply (.name "π") (.name "x")) := ⟨.inr rfl, .inl rfl⟩
  obtain ⟨n, pointed, text⟩ := exists_numeral finite places
  have clashing : clashes "x".toList n.negative (lexemes "πx".toList) = true := by
    cases n.negative <;> decide +kernel
  rw [text, numberTree_text]
  exact not_read_substitute (by decide) read_pi_x known pointed clashing

end Stepwise.Formula
