import Stepwise.Formula.Basic

/-!
# The names of a tree

- `constantNames`, `functionNames`: the names that have a meaning of their own
- `Tree.replace`: a tree in place of a name of another
- `Tree.Known`: all names have a meaning; then, and only then, a tree is resolved
- `Tree.tally`: a sum over the names
-/

namespace Stepwise.Formula

/-! ## Constants and functions -/

def constantNames : List String := ["pi", "π", "e"]

theorem isSome_constant?_iff {word : String} :
    (constant? word).isSome = true ↔ word ∈ constantNames := by
  unfold constant?
  split
  next => simp [constantNames]
  next => simp [constantNames]
  next => simp [constantNames]
  next notPi notLetter notE =>
    simp only [constantNames, List.mem_cons, List.not_mem_nil, or_false, Option.isSome_none,
      Bool.false_eq_true, false_iff, not_or]
    exact ⟨notPi, notLetter, notE⟩

def functionNames : List String :=
  ["sin", "cos", "tan", "asin", "acos", "atan", "sinh", "cosh", "tanh", "exp", "log", "ln", "log10",
    "log2", "sqrt", "cbrt", "abs", "floor", "ceil", "signum"]

theorem isSome_ofName?_iff {word : String} :
    (Function.ofName? word).isSome = true ↔ word ∈ functionNames := by
  constructor
  · intro known
    unfold Function.ofName? at known
    split at known
    case h_21 => cases known
    all_goals decide
  · have all : ∀ name ∈ functionNames, (Function.ofName? name).isSome = true := by decide
    exact all word

namespace Tree

/-- The tree with another in place of a name. The names of functions stay. -/
def replace (tree : Tree) (variableName : String) (value : Tree) : Tree :=
  match tree with
  | .number x => .number x
  | .name word => if word = variableName then value else .name word
  | .negate operand => .negate (operand.replace variableName value)
  | .binary operator left right =>
    .binary operator (left.replace variableName value) (right.replace variableName value)
  | .call function argument => .call function (argument.replace variableName value)

/-! ## Names with a meaning -/

/-- Each name is the variable or a constant, and each function is known. -/
def Known (variableName : String) : Tree → Prop
  | .number _ => True
  | .name word => word = variableName ∨ (constant? word).isSome = true
  | .negate operand => operand.Known variableName
  | .binary _ left right => left.Known variableName ∧ right.Known variableName
  | .call function argument =>
    (Function.ofName? function).isSome = true ∧ argument.Known variableName

theorem known_iff {tree : Tree} {variableName : String} :
    tree.Known variableName ↔ ∃ term, tree.resolve variableName = .ok term := by
  induction tree with
  | number => exact ⟨fun _ => ⟨_, rfl⟩, fun _ => trivial⟩
  | name word =>
    by_cases same : word = variableName
    · simp [Known, resolve, same]
    · cases constant : constant? word with
      | none => simp [Known, resolve, same, constant]
      | some value => simp [Known, resolve, same, constant]
  | negate operand ih =>
    rw [Known, ih, resolve]
    cases operand.resolve variableName with
    | ok term => exact ⟨fun _ => ⟨_, rfl⟩, fun _ => ⟨_, rfl⟩⟩
    | error => exact ⟨nofun, nofun⟩
  | binary operator left right ih ih' =>
    rw [Known, ih, ih', resolve]
    cases left.resolve variableName with
    | error => exact ⟨nofun, nofun⟩
    | ok =>
      cases right.resolve variableName with
      | ok => exact ⟨fun _ => ⟨_, rfl⟩, fun _ => ⟨⟨_, rfl⟩, ⟨_, rfl⟩⟩⟩
      | error => exact ⟨nofun, nofun⟩
  | call word argument ih =>
    rw [Known, ih, resolve]
    cases Function.ofName? word with
    | none => exact ⟨nofun, nofun⟩
    | some function =>
      cases argument.resolve variableName with
      | ok => exact ⟨fun _ => ⟨_, rfl⟩, fun _ => ⟨rfl, ⟨_, rfl⟩⟩⟩
      | error => exact ⟨nofun, nofun⟩

/-- Without its variable a tree needs none. -/
theorem Known.replace {tree value : Tree} {variableName : String} (known : tree.Known variableName)
    {other : String} (valueKnown : value.Known other) :
    (tree.replace variableName value).Known other := by
  induction tree with
  | number => trivial
  | name word =>
    rw [Tree.replace]
    split
    next => exact valueKnown
    next different => exact .inr (known.resolve_left different)
  | negate operand ih => exact ih known
  | binary operator left right ih ih' => exact ⟨ih known.1, ih' known.2⟩
  | call word argument ih => exact ⟨known.1, ih known.2⟩

/-- With a number in place of its variable a tree has the value that it has there. -/
theorem exists_eval_replace {tree value : Tree} {variableName : String} {term valueTerm : Term}
    {x : Float} (resolved : tree.resolve variableName = .ok term)
    (valueResolved : value.resolve variableName = .ok valueTerm)
    (valued : ∀ y, valueTerm.eval y = .ok x) :
    ∃ term', (tree.replace variableName value).resolve variableName = .ok term' ∧
      ∀ y, term'.eval y = term.eval x := by
  -- The parts of a tree with a meaning have one, so the cases of errors are empty.
  induction tree generalizing term with
  | number z =>
    cases resolved
    exact ⟨.number z, rfl, fun _ => rfl⟩
  | name word =>
    by_cases same : word = variableName
    · rw [resolve, if_pos same] at resolved
      cases resolved
      rw [replace, if_pos same]
      exact ⟨valueTerm, valueResolved, valued⟩
    · rw [replace, if_neg same]
      refine ⟨term, resolved, fun y => ?_⟩
      rw [resolve, if_neg same] at resolved
      split at resolved <;> cases resolved
      rfl
  | negate operand ih =>
    cases inside : operand.resolve variableName with
    | error =>
      rw [resolve, inside] at resolved
      cases resolved
    | ok inner =>
      rw [resolve, inside] at resolved
      cases resolved
      obtain ⟨inner', replaced, same⟩ := ih inside
      refine ⟨.negate inner', ?_, fun y => ?_⟩
      · rw [replace, resolve, replaced]
        rfl
      · rw [Term.eval, Term.eval, same]
  | binary operator left right ih ih' =>
    cases first : left.resolve variableName with
    | error =>
      rw [resolve, first] at resolved
      cases resolved
    | ok leftTerm =>
      cases second : right.resolve variableName with
      | error =>
        rw [resolve, first, second] at resolved
        cases resolved
      | ok rightTerm =>
        rw [resolve, first, second] at resolved
        cases resolved
        obtain ⟨left', replaced, same⟩ := ih first
        obtain ⟨right', replaced', same'⟩ := ih' second
        refine ⟨.binary operator left' right', ?_, fun y => ?_⟩
        · rw [replace, resolve, replaced, replaced']
          rfl
        · rw [Term.eval, Term.eval, same, same']
  | call word argument ih =>
    cases known : Function.ofName? word with
    | none =>
      rw [resolve, known] at resolved
      cases resolved
    | some function =>
      cases inside : argument.resolve variableName with
      | error =>
        rw [resolve, known, inside] at resolved
        cases resolved
      | ok inner =>
        rw [resolve, known, inside] at resolved
        cases resolved
        obtain ⟨inner', replaced, same⟩ := ih inside
        refine ⟨.call function inner', ?_, fun y => ?_⟩
        · rw [replace, resolve, known, replaced]
          rfl
        · rw [Term.eval, Term.eval, same]

/-! ## Sums over the names -/

/-- A sum over the names of a tree, those of functions valued by a function of their own. -/
def tally (name function : List Char → Nat) : Tree → Nat
  | .number _ => 0
  | .name word => name word.toList
  | .negate operand => operand.tally name function
  | .binary _ left right => left.tally name function + right.tally name function
  | .call word argument => function word.toList + argument.tally name function

variable {name function : List Char → Nat}

theorem tally_replace (tree : Tree) {value : Tree} (nothing : value.tally name function = 0)
    (v : List Char) : (tree.replace (String.ofList v) value).tally name function =
      tree.tally (fun word => if word = v then 0 else name word) function := by
  induction tree with
  | number => rfl
  | name word =>
    have same : word = String.ofList v ↔ word.toList = v := by
      rw [String.ext_iff, String.toList_ofList]
    by_cases equal : word.toList = v
    · rw [replace, if_pos (same.2 equal), nothing, tally, if_pos equal]
    · rw [replace, if_neg fun other => equal (same.1 other), tally, tally, if_neg equal]
  | negate operand ih => exact ih
  | binary operator left right ih ih' => simp [replace, tally, ih, ih']
  | call word argument ih => simp [replace, tally, ih]

/-- Counts the functions without a meaning. -/
def unknown (word : List Char) : Nat :=
  if (Function.ofName? (String.ofList word)).isSome then 0 else 1

theorem Known.tally {tree : Tree} {variableName : String} (known : tree.Known variableName) :
    tree.tally (fun _ => 0) unknown = 0 := by
  induction tree with
  | number | name => rfl
  | negate operand ih => exact ih known
  | binary operator left right ih ih' => simp [Tree.tally, ih known.1, ih' known.2]
  | call word argument ih => simp [Tree.tally, unknown, known.1, ih known.2]

end Tree

end Stepwise.Formula
