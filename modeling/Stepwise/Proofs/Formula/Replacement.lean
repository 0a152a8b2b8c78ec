import Stepwise.Proofs.Formula.Clashes

/-!
# The tree with a number in place of the variable

The grammar derives the tokens with a number in place of the variable, and the tree that they stand
for has the number in place of the variable.
-/

namespace Stepwise.Formula

variable {v : List Char} {n : Numeral} {negative : Bool} {token : Token} {tokens : List Token}
  {rest : List Char}

theorem Derives.ends {level : Level} {tokens : List Token} {tree : Tree}
    (derives : Derives level tokens tree) :
    ∃ token, tokens.getLast? = some token ∧ token.part.Ends := by
  induction derives with
  | literal => exact ⟨_, rfl, trivial⟩
  | name => exact ⟨_, rfl, trivial⟩
  | call _ _ closing =>
    exact ⟨⟨closing, .symbol ')'⟩, by simp [List.getLast?_append, List.getLast?_cons], rfl⟩
  | group _ closing =>
    exact ⟨⟨closing, .symbol ')'⟩, by simp [List.getLast?_append, List.getLast?_cons], rfl⟩
  | base _ ih => exact ih
  | unsigned _ ih => exact ih
  | factor _ ih => exact ih
  | term _ ih => exact ih
  | sign _ _ _ ih =>
    obtain ⟨token, last, ends⟩ := ih
    exact ⟨token, by simp [List.getLast?_cons, last], ends⟩
  | raise _ _ _ _ ih =>
    obtain ⟨token, last, ends⟩ := ih
    exact ⟨token, by simp [List.getLast?_append, List.getLast?_cons, last], ends⟩
  | multiply _ _ _ _ _ ih =>
    obtain ⟨token, last, ends⟩ := ih
    exact ⟨token, by simp [List.getLast?_append, List.getLast?_cons, last], ends⟩
  | juxtapose _ _ _ _ ih =>
    obtain ⟨token, last, ends⟩ := ih
    exact ⟨token, by simp [List.getLast?_append, last], ends⟩
  | add _ _ _ _ _ ih =>
    obtain ⟨token, last, ends⟩ := ih
    exact ⟨token, by simp [List.getLast?_append, List.getLast?_cons, last], ends⟩

theorem Numeral.derives_tokens (n : Numeral) (blanks : List Char) (previous : Option Char) :
    Derives .atom (n.tokens blanks previous) n.tree := by
  have literal (blanks : List Char) : Derives .atom [⟨blanks, .literal n.digits []⟩]
      (.number (literalValue n.digits)) := by
    simpa using Derives.literal blanks (denotes_literalValue n.isMantissa .none)
  rw [tokens, tree]
  split
  · exact .group blanks [] (.term (.factor (.sign [] rfl (.unsigned (.base (literal []))))))
  · split
    · exact .group blanks [] (.term (.factor (.unsigned (.base (literal [])))))
    · exact literal blanks

/-- Tokens for which a number can stand in for the variable. -/
structure Pluggable (v : List Char) (negative : Bool) (tokens : List Token) (rest : List Char) :
    Prop where
  fits : Fits tokens rest
  clear : clashes v negative (lexemes (textOf tokens ++ rest)) = false

theorem Pluggable.of_append {first second : List Token}
    (pluggable : Pluggable v negative (first ++ second) rest) :
    Pluggable v negative first (textOf second ++ rest) ∧ Pluggable v negative second rest := by
  obtain ⟨fits, clear⟩ := pluggable
  obtain ⟨fitsFirst, fitsSecond⟩ := fits_append.1 fits
  rw [textOf_append, List.append_assoc] at clear
  refine ⟨⟨fitsFirst, clear⟩, fitsSecond, ?_⟩
  rw [lexemes_textOf fitsFirst] at clear
  exact clashes_append clear

theorem Pluggable.of_cons (pluggable : Pluggable v negative (token :: tokens) rest) :
    Pluggable v negative tokens rest := by
  change Pluggable v negative ([token] ++ tokens) rest at pluggable
  exact pluggable.of_append.2

theorem startsFactor_congr {text text' : List Char} (same : text'.head? = text.head?) :
    startsFactor text' = startsFactor text := by
  cases text <;> cases text' <;> simp_all [startsFactor]

/-- A factor without an operator still starts at once. -/
theorem startsFactor_plugTokens {first second : List Token} {left : Tree} (isName : IsName v)
    (notPi : v ≠ ['π']) (product : Derives .product first left)
    (pluggable : Pluggable v n.negative (first ++ second) rest)
    (starts : startsFactor (textOf second) = true) (previous : Option Char) :
    startsFactor (textOf (plugTokens v n (after previous (plugTokens v n previous first)) second)) =
      true := by
  have fitsSecond := pluggable.of_append.2.fits
  by_cases direct : ∃ more, second = ⟨[], .name v⟩ :: more
  · obtain ⟨more, rfl⟩ := direct
    obtain ⟨token, last, ends⟩ := product.ends
    obtain ⟨init, rfl⟩ := List.getLast?_eq_some_iff.1 last
    obtain ⟨fits, clear⟩ := pluggable.of_append.1.of_append.2
    obtain ⟨clearHere, -⟩ := clear_of_fits fits clear
    obtain ⟨-, fitsPart, -⟩ := fits
    rw [textOf_nil, List.nil_append] at fitsPart clearHere
    -- The number is in parentheses, since an operand is in front of it.
    have known : token.part ≠ .name v := by
      intro same
      rw [same] at fitsPart clearHere
      exact not_name_before_variable isName notPi fitsPart fitsSecond clearHere
    obtain ⟨inside, opened⟩ := plugTokens_behind_operand (n := n) isName notPi token ends fitsPart
      fitsSecond clearHere (after previous (plugTokens v n previous init))
    have single (previous : Option Char) : plugTokens v n previous [token] = [token] := by
      rw [plugTokens, Token.plug_of_ne known]
      rfl
    rw [plugTokens_append, after_append, single, opened]
    rfl
  · rw [startsFactor_congr ((head?_plugTokens fitsSecond _).resolve_left direct)]
    exact starts

theorem derives_plugTokens {level : Level} {tree : Tree} (isName : IsName v) (notPi : v ≠ ['π'])
    (derives : Derives level tokens tree) (pluggable : Pluggable v n.negative tokens rest)
    (previous : Option Char) :
    Derives level (plugTokens v n previous tokens) (tree.replace (String.ofList v) n.tree) := by
  induction derives generalizing rest previous with
  | literal blanks denotes => exact .literal blanks denotes
  | name blanks word =>
    by_cases same : word = v
    · subst same
      rw [plugTokens, Token.plug_variable, plugTokens, List.append_nil, Tree.replace, if_pos rfl]
      exact n.derives_tokens _ _
    · have other : String.ofList word ≠ String.ofList v := fun equal =>
        same (by simpa using congrArg String.toList equal)
      rw [plugTokens, Token.plug_of_ne (by simpa using same), plugTokens, List.append_nil,
        Tree.replace, if_neg other]
      exact .name blanks word
  | call blanks word closing sum ih =>
    have inside := ih pluggable.of_cons.of_cons.of_append.1
    simp only [List.cons_append, plugTokens, plugTokens_append, Token.plug, List.append_nil]
    exact .call blanks word closing (inside _)
  | group blanks closing sum ih =>
    have inside := ih pluggable.of_cons.of_append.1
    simp only [List.cons_append, plugTokens, plugTokens_append, Token.plug, List.append_nil]
    exact .group blanks closing (inside _)
  | base atom ih => exact .base (ih pluggable previous)
  | raise blanks atom signed ih ih' =>
    obtain ⟨first, second⟩ := pluggable.of_append
    rw [plugTokens_append]
    exact .raise blanks (ih first previous) (ih' second.of_cons _)
  | unsigned power ih => exact .unsigned (ih pluggable previous)
  | @sign blanks c apply _ operand mark signed ih =>
    have inside := ih pluggable.of_cons
    -- A sign either negates its operand or leaves it alone.
    have outside : (apply operand).replace (String.ofList v) n.tree =
        apply (operand.replace (String.ofList v) n.tree) := by
      unfold Formula.sign at mark
      split at mark <;> cases mark <;> rfl
    rw [outside]
    exact .sign blanks mark (inside _)
  | factor signed ih => exact .factor (ih pluggable previous)
  | multiply blanks meaning product signed ih ih' =>
    obtain ⟨first, second⟩ := pluggable.of_append
    rw [plugTokens_append]
    exact .multiply blanks meaning (ih first previous) (ih' second.of_cons _)
  | juxtapose product power starts ih ih' =>
    obtain ⟨first, second⟩ := pluggable.of_append
    rw [plugTokens_append]
    exact .juxtapose (ih first previous) (ih' second _)
      (startsFactor_plugTokens isName notPi product pluggable starts previous)
  | term product ih => exact .term (ih pluggable previous)
  | add blanks meaning sum product ih ih' =>
    obtain ⟨first, second⟩ := pluggable.of_append
    rw [plugTokens_append]
    exact .add blanks meaning (ih first previous) (ih' second.of_cons _)

end Stepwise.Formula
