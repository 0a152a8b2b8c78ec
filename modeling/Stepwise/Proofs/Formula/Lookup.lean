import Stepwise.Proofs.Formula.Names
import Stepwise.Proofs.Formula.Tokens

/-!
# Names are looked up from left to right

The tree of a formula is gone through in the order of its text, so that of several names without a
meaning the first in the text is the one that is reported.

- `Part.Known`, `Part.leaf?`: whether a name has a meaning, and which
- `FirstUnknown`: the first token whose name has none
- `Derives.lookedUp`: what becomes of a tree is told by its tokens
-/

namespace Stepwise.Formula

/-! ## The meanings of names -/

/-- Whether a name has a meaning. One that is called has to be a function, and any other the variable
or a constant. -/
def Part.Known (variableName : String) : Part → Prop
  | .name word => String.ofList word = variableName ∨ String.ofList word ∈ constantNames
  | .function word => String.ofList word ∈ functionNames
  | _ => True

/-- What is reported of a name without a meaning. -/
def Part.unknown? : Part → Option Error
  | .name word => some (.unknownVariable (String.ofList word))
  | .function word => some (.unknownFunction (String.ofList word))
  | _ => none

/-- What a name or a literal stands for. -/
inductive Leaf where
  | number (value : Float)
  | variable
  | function (function : Function)

/-- The meaning of a part. A name that is the variable is nothing else, and a name that is called is
a function, even if it is that of the variable. -/
def Part.leaf? (variableName : String) : Part → Option Leaf
  | .literal mantissa exponent => some (.number (literalValue (mantissa ++ exponent)))
  | .name word =>
    if String.ofList word = variableName then some .variable
    else (constant? (String.ofList word)).map .number
  | .function word => (Function.ofName? (String.ofList word)).map .function
  | .symbol _ => none

theorem Denotes.leaf?_eq {mantissa exponent : List Char} {value : Float}
    (denotes : Denotes mantissa exponent value) (variableName : String) :
    (Part.literal mantissa exponent).leaf? variableName = some (.number value) := by
  rw [Part.leaf?, denotes.literalValue_eq]

/-- What a term is made of, from left to right. -/
def Term.leaves : Term → List Leaf
  | .number value => [.number value]
  | .variable => [.variable]
  | .negate operand => operand.leaves
  | .binary _ left right => left.leaves ++ right.leaves
  | .call function argument => .function function :: argument.leaves

/-! ## The first name without a meaning -/

variable {variableName : String} {first second middle tokens : List Token} {error : Error}

/-- Everything before a token has a meaning, and the token has none. -/
def FirstUnknown (variableName : String) (tokens : List Token) (error : Error) : Prop :=
  ∃ before token behind, tokens = before ++ token :: behind ∧
    (∀ other ∈ before, other.part.Known variableName) ∧ ¬ token.part.Known variableName ∧
    token.part.unknown? = some error

theorem FirstUnknown.not_known (unknown : FirstUnknown variableName tokens error) :
    ¬ ∀ token ∈ tokens, token.part.Known variableName := by
  obtain ⟨before, token, behind, rfl, -, notKnown, -⟩ := unknown
  exact fun known => notKnown (known token (by simp))

/-- A token without a meaning is not before another one that is the first. -/
theorem eq_of_first {token token' : Token} {behind behind' more : List Token}
    (same : token :: behind = more ++ token' :: behind')
    (known : ∀ other ∈ more, other.part.Known variableName)
    (notKnown : ¬ token.part.Known variableName) : token = token' := by
  cases more with
  | nil => exact (List.cons.inj same).1
  | cons d more =>
    obtain rfl := (List.cons.inj same).1
    exact absurd (known _ List.mem_cons_self) notKnown

/-- Only one error is the first. -/
theorem FirstUnknown.unique {error' : Error} (unknown : FirstUnknown variableName tokens error)
    (unknown' : FirstUnknown variableName tokens error') : error = error' := by
  obtain ⟨before, token, behind, rfl, known, notKnown, reports⟩ := unknown
  obtain ⟨before', token', behind', same, known', notKnown', reports'⟩ := unknown'
  obtain rfl : token = token' := by
    obtain ⟨more, rfl, rest⟩ | ⟨more, rfl, rest⟩ := List.append_eq_append_iff.1 same
    · exact eq_of_first rest (fun other member => known' other (List.mem_append_right _ member))
        notKnown
    · exact (eq_of_first rest (fun other member => known other (List.mem_append_right _ member))
        notKnown').symm
  exact Option.some.inj (reports.symm.trans reports')

theorem FirstUnknown.append_right (unknown : FirstUnknown variableName first error)
    (second : List Token) : FirstUnknown variableName (first ++ second) error := by
  obtain ⟨before, token, behind, rfl, rest⟩ := unknown
  exact ⟨before, token, behind ++ second, by simp, rest⟩

theorem FirstUnknown.append_left (unknown : FirstUnknown variableName second error)
    (known : ∀ token ∈ first, token.part.Known variableName) :
    FirstUnknown variableName (first ++ second) error := by
  obtain ⟨before, token, behind, rfl, known', rest⟩ := unknown
  refine ⟨first ++ before, token, behind, by simp, ?_, rest⟩
  intro other member
  rcases List.mem_append.1 member with member | member
  · exact known other member
  · exact known' other member

/-! ## What becomes of a tree -/

/-- Where all tokens have a meaning, there is a term, and it is made of these meanings. Otherwise the
first token without one is reported. -/
inductive LookedUp (variableName : String) (tokens : List Token) : Except Error Term → Prop where
  | known {term : Term} (all : ∀ token ∈ tokens, token.part.Known variableName)
    (leaves : term.leaves = tokens.filterMap fun token => token.part.leaf? variableName) :
    LookedUp variableName tokens (.ok term)
  | unknown {error : Error} (unknown : FirstUnknown variableName tokens error) :
    LookedUp variableName tokens (.error error)

/-- Tokens that are symbols only. -/
def Silent (tokens : List Token) : Prop := ∀ token ∈ tokens, ∃ c, token.part = .symbol c

theorem silent_nil : Silent [] := nofun

theorem silent_symbol (blanks : List Char) (c : Char) : Silent [⟨blanks, .symbol c⟩] := by
  intro token member
  rw [List.mem_singleton.1 member]
  exact ⟨c, rfl⟩

theorem Silent.known (silent : Silent tokens) :
    ∀ token ∈ tokens, token.part.Known variableName := by
  intro token member
  obtain ⟨c, symbol⟩ := silent token member
  rw [symbol]
  trivial

theorem Silent.filterMap_eq_nil (silent : Silent tokens) :
    (tokens.filterMap fun token => token.part.leaf? variableName) = [] := by
  rw [List.filterMap_eq_nil_iff]
  intro token member
  obtain ⟨c, symbol⟩ := silent token member
  rw [symbol]
  rfl

namespace LookedUp

variable {result result' : Except Error Term}

/-- Symbols around the tokens say nothing. -/
theorem surround (lookedUp : LookedUp variableName tokens result) (before : Silent first)
    (behind : Silent second) : LookedUp variableName (first ++ (tokens ++ second)) result := by
  cases lookedUp with
  | known all leaves =>
    refine .known ?_ ?_
    · simp only [List.forall_mem_append]
      exact ⟨before.known, all, behind.known⟩
    · rw [List.filterMap_append, List.filterMap_append, before.filterMap_eq_nil,
        behind.filterMap_eq_nil, List.nil_append, List.append_nil, leaves]
  | unknown unknown => exact .unknown ((unknown.append_right second).append_left before.known)

theorem negate (lookedUp : LookedUp variableName tokens result) :
    LookedUp variableName tokens (do return .negate (← result)) := by
  cases lookedUp with
  | known all leaves => exact .known all leaves
  | unknown unknown => exact .unknown unknown

/-- The left operand is looked up first. -/
theorem binary (left : LookedUp variableName first result) (between : Silent middle)
    (right : LookedUp variableName second result') (operator : Operator) :
    LookedUp variableName (first ++ (middle ++ second))
      (do let left ← result; let right ← result'; return .binary operator left right) := by
  cases left with
  | unknown unknown => exact .unknown (unknown.append_right _)
  | known all leaves =>
    cases right with
    | unknown unknown => exact .unknown ((unknown.append_left between.known).append_left all)
    | known all' leaves' =>
      refine .known ?_ ?_
      · simp only [List.forall_mem_append]
        exact ⟨all, between.known, all'⟩
      · rw [List.filterMap_append, List.filterMap_append, between.filterMap_eq_nil,
          List.nil_append, ← leaves, ← leaves']
        rfl

/-- The name of a function is looked up before its argument. -/
theorem call (argument : LookedUp variableName tokens result) (blanks word : List Char) :
    LookedUp variableName (⟨blanks, .function word⟩ :: tokens)
      (match Function.ofName? (String.ofList word) with
        | none => .error (.unknownFunction (String.ofList word))
        | some function => do return .call function (← result)) := by
  cases known : Function.ofName? (String.ofList word) with
  | none =>
    have notKnown : String.ofList word ∉ functionNames := by
      rw [← isSome_ofName?_iff, known]
      exact Bool.false_ne_true
    exact .unknown ⟨[], _, tokens, rfl, List.forall_mem_nil _, notKnown, rfl⟩
  | some function =>
    have here : ∀ token ∈ [(⟨blanks, .function word⟩ : Token)], token.part.Known variableName := by
      intro token member
      rw [List.mem_singleton.1 member, Part.Known, ← isSome_ofName?_iff, known]
      rfl
    cases argument with
    | unknown unknown => exact .unknown (unknown.append_left here)
    | known all leaves =>
      refine .known (List.forall_mem_cons.2 ⟨here _ List.mem_cons_self, all⟩) ?_
      rw [List.filterMap_cons, Part.leaf?, known, ← leaves]
      rfl

theorem name (blanks word : List Char) : LookedUp variableName [⟨blanks, .name word⟩]
    ((Tree.name (String.ofList word)).resolve variableName) := by
  rw [Tree.resolve]
  split
  next same =>
    refine .known ?_ ?_
    · intro token member
      rw [List.mem_singleton.1 member]
      exact .inl same
    · simp [Term.leaves, Part.leaf?, same]
  next other =>
    split
    next value constant =>
      refine .known ?_ ?_
      · intro token member
        rw [List.mem_singleton.1 member]
        exact .inr (isSome_constant?_iff.1 (by rw [constant]; rfl))
      · simp [Term.leaves, Part.leaf?, other, constant]
    next absent =>
      refine .unknown ⟨[], _, [], rfl, List.forall_mem_nil _, ?_, rfl⟩
      rintro (same | constant)
      · exact other same
      · rw [← isSome_constant?_iff, absent] at constant
        cases constant

end LookedUp

/-- The tree of a formula is looked up in the order of its tokens. -/
theorem Derives.lookedUp {level : Level} {tree : Tree} (derives : Derives level tokens tree) :
    LookedUp variableName tokens (tree.resolve variableName) := by
  induction derives with
  | literal blanks denotes =>
    refine .known ?_ ?_
    · intro token member
      rw [List.mem_singleton.1 member]
      trivial
    · rw [List.filterMap_cons, denotes.leaf?_eq]
      rfl
  | name blanks word => exact .name blanks word
  | call blanks word closing sum ih =>
    exact (ih.surround (silent_symbol [] '(') (silent_symbol closing ')')).call blanks word
  | group blanks closing sum ih =>
    exact ih.surround (silent_symbol blanks '(') (silent_symbol closing ')')
  | base _ ih | unsigned _ ih | factor _ ih | term _ ih => exact ih
  | raise blanks _ _ ih ih' => exact ih.binary (silent_symbol blanks '^') ih' .power
  | @sign blanks c apply tokens operand mark _ ih =>
    have inside := ih.surround (silent_symbol blanks c) silent_nil
    rw [List.append_nil] at inside
    -- A sign either negates its operand or leaves it alone.
    unfold Formula.sign at mark
    split at mark <;> cases mark
    · exact inside.negate
    · exact inside
  | @multiply blanks c operator _ _ _ _ _ _ _ ih ih' =>
    exact ih.binary (silent_symbol blanks c) ih' operator
  | juxtapose _ _ _ ih ih' => exact ih.binary silent_nil ih' .multiply
  | @add blanks c operator _ _ _ _ _ _ _ ih ih' =>
    exact ih.binary (silent_symbol blanks c) ih' operator

/-! ## Whole texts -/

theorem parse_eq_map {source : String} {tree : Tree} (read : Tree.read source = .ok tree)
    (variableName : String) : Formula.parse source variableName =
      (tree.resolve variableName).map (⟨source, variableName, ·⟩) := by
  rw [Formula.parse, read]
  simp only [bind, Except.bind]
  cases tree.resolve variableName <;> rfl

/-- A text of the grammar is a formula exactly if each of its names has a meaning, and otherwise the
first name in the text that has none is reported. In a formula the variable stands for itself
wherever it is not called, whatever else its name means. -/
theorem parse_reports_first_unknown {source : String} {tree : Tree}
    (read : Tree.read source = .ok tree) (variableName : String) :
    ∃ tokens white, Tokenized source tree tokens white ∧
      ((∃ formula, Formula.parse source variableName = .ok formula) ↔
        ∀ token ∈ tokens, token.part.Known variableName) ∧
      (∀ error, Formula.parse source variableName = .error error ↔
        FirstUnknown variableName tokens error) ∧
      ∀ formula, Formula.parse source variableName = .ok formula →
        formula.term.leaves = tokens.filterMap fun token => token.part.leaf? variableName := by
  obtain ⟨tokens, white, tokenized⟩ := Tree.exists_tokenized read
  refine ⟨tokens, white, tokenized, ?_⟩
  rw [parse_eq_map read]
  have lookedUp : LookedUp variableName tokens (tree.resolve variableName) :=
    tokenized.derives.lookedUp
  cases resolved : tree.resolve variableName with
  | ok term =>
    rw [resolved] at lookedUp
    cases lookedUp with
    | known all leaves =>
      refine ⟨⟨fun _ => all, fun _ => ⟨_, rfl⟩⟩, fun error => ⟨nofun, ?_⟩, ?_⟩
      · exact fun unknown => absurd all unknown.not_known
      · intro formula same
        cases same
        exact leaves
  | error error =>
    rw [resolved] at lookedUp
    cases lookedUp with
    | unknown unknown =>
      refine ⟨⟨nofun, fun all => absurd all unknown.not_known⟩, fun other => ⟨?_, ?_⟩, nofun⟩
      · intro same
        cases same
        exact unknown
      · exact fun unknown' => congrArg Except.error (unknown.unique unknown')

/-- In `y(z)` the name that is called is no function, though it is that of the variable, and `z` is
behind it. -/
theorem parse_reports_called_variable :
    Tree.read "y(z)" = .ok (.call "y" (.name "z")) ∧
      Formula.parse "y(z)" "y" = .error (.unknownFunction "y") := by
  have derives : Derives .sum
      [⟨[], .function ['y']⟩, ⟨[], .symbol '('⟩, ⟨[], .name ['z']⟩, ⟨[], .symbol ')'⟩]
      (.call "y" (.name "z")) :=
    .term (.factor (.unsigned (.base (.call [] ['y'] []
      (.term (.factor (.unsigned (.base (.name [] ['z'])))))))))
  have called : (Part.function ['y']).Fits ['(', 'z', ')'] := ⟨.letter rfl, _, rfl⟩
  have name : (Part.name ['z']).Fits [')'] :=
    ⟨.letter rfl, .inr (avoids_cons.2 rfl), avoids_cons.2 rfl, avoids_cons.2 rfl⟩
  have tokenized : Tokenized "y(z)" (.call "y" (.name "z")) _ [] :=
    ⟨rfl, isWhite_nil, derives, by simp, called, by simp, rfl, by simp, name, by simp, rfl, trivial⟩
  obtain ⟨tokens, white, other, -, reports, -⟩ := parse_reports_first_unknown tokenized.read "y"
  obtain ⟨rfl, rfl⟩ := tokenized.unique other
  have notKnown : ¬ (Part.function ['y']).Known "y" := by
    rw [Part.Known]
    decide
  exact ⟨tokenized.read, (reports _).2 ⟨[], _, _, rfl, nofun, notKnown, rfl⟩⟩

end Stepwise.Formula
