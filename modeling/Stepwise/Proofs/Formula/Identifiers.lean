import Stepwise.Proofs.Formula.Substitution
import Stepwise.Proofs.Formula.WholeWords
import Stepwise.Root.Settings

/-!
# Names of variables

The settings of a search say which names a variable may have, the reader of formulas which names it
takes off a text, and the substitution which words it looks at. Apart from the Greek letter that
names a constant, these are the same.

- `isIdentifier_iff`, `isIdentifier_iff_lexemes`, `read_name_iff`: the three notions of a name
- `Usable`: what a name of a variable is good for
-/

namespace Stepwise.Formula

variable {name : String}

/-! ## Three notions of a name -/

theorem isIdentifier_iff : isIdentifier name = true ↔ IsName name.toList ∧ name ≠ "π" := by
  constructor
  · intro identifier
    obtain ⟨isName, notPi⟩ := isName_of_isIdentifier identifier
    refine ⟨isName, ?_⟩
    rintro rfl
    exact notPi rfl
  · rintro ⟨isName, notPi⟩
    rw [isIdentifier]
    generalize split : name.toList = word at isName
    cases isName with
    | pi => exact absurd (String.toList_injective split) notPi
    | word start parts =>
      rw [Bool.and_eq_true, List.all_eq_true]
      exact ⟨start, parts⟩

/-- A text is read as a name alone exactly if it is one. -/
theorem read_name_iff : Tree.read name = .ok (.name name) ↔ IsName name.toList := by
  constructor
  · exact Tree.named_of_read
  · intro isName
    have derives : Derives .sum [⟨[], .name name.toList⟩] (.name (String.ofList name.toList)) :=
      .term (.factor (.unsigned (.base (.name [] name.toList))))
    rw [String.ofList_toList] at derives
    have fits : (Part.name name.toList).Fits [] :=
      ⟨isName, .inr avoids_nil, avoids_nil, avoids_nil⟩
    have whole : name.toList = textOf [⟨[], .name name.toList⟩] ++ [] := by
      simp [Token.text, Part.text]
    exact Tree.read_of_derives whole isWhite_nil derives ⟨by simp, fits, trivial⟩

/-- The substitution sees a single word in it. -/
theorem isIdentifier_iff_lexemes :
    isIdentifier name = true ↔ lexemes name.toList = [.word name.toList] := by
  constructor
  · intro identifier
    obtain ⟨isName, notPi⟩ := isName_of_isIdentifier identifier
    have pieces := lexemes_name isName (.inr avoids_nil)
    rwa [List.append_nil, if_neg notPi, lexemes] at pieces
  · intro pieces
    have cuts := cuts_lexemes name.toList
    rw [isIdentifier]
    generalize name.toList = text at pieces cuts
    generalize lexemes text = found at pieces cuts
    cases cuts with
    | word start parts ends behind =>
      obtain ⟨-, rfl⟩ := List.cons.inj pieces
      cases behind
      rw [List.append_nil, Bool.and_eq_true, List.all_eq_true]
      exact ⟨start, parts⟩
    | nil | numeral | other => cases pieces

theorem exists_withVariableName_iff (settings : Root.Settings) :
    (∃ accepted, settings.withVariableName name = .ok accepted) ↔ isIdentifier name = true := by
  rw [Root.Settings.withVariableName]
  split
  next identifier => exact ⟨fun _ => identifier, fun _ => ⟨_, rfl⟩⟩
  next other => exact ⟨nofun, fun identifier => absurd identifier other⟩

/-! ## Usable names -/

/-- A name that can stand for a number. Written alone, it is a formula with the value of its
variable, and a value takes its place, in parentheses if it is negative. -/
structure Usable (name : String) : Prop where
  read : Tree.read name = .ok (.name name)
  evaluates : ∃ formula, Formula.parse name name = .ok formula ∧ ∀ x, formula.eval x = .ok x
  replaced : ∀ value : String, substitute name name value =
    if value.toList.head? = some '-' then "(" ++ value ++ ")" else value

theorem substitute_of_isIdentifier (identifier : isIdentifier name = true) (value : String) :
    substitute name name value =
      if value.toList.head? = some '-' then "(" ++ value ++ ")" else value := by
  have written : insertion value.toList none =
      if value.toList.head? = some '-' then '(' :: value.toList ++ [')'] else value.toList := by
    simp [insertion]
  rw [substitute, isIdentifier_iff_lexemes.1 identifier, substitutePieces, substitutePieces,
    List.append_nil, replacement, if_pos rfl, written, String.ext_iff, String.toList_ofList]
  split <;> simp

theorem substitute_pi (value : String) : substitute "π" "π" value = "π" := by
  have pieces : lexemes "π".toList = [.other 'π'] := by
    rw [show "π".toList = ['π'] from rfl, lexemes_other rfl rfl, lexemes]
  rw [substitute, pieces]
  rfl

theorem usable_iff : Usable name ↔ isIdentifier name = true := by
  constructor
  · rintro ⟨read, -, replaced⟩
    refine isIdentifier_iff.2 ⟨read_name_iff.1 read, ?_⟩
    rintro rfl
    -- The substitution takes no notice of the Greek letter.
    have written := replaced "1"
    rw [substitute_pi] at written
    revert written
    decide
  · intro identifier
    have read := read_name_iff.2 (isIdentifier_iff.1 identifier).1
    exact {
      read
      evaluates := ⟨_, parse_eq read (if_pos rfl), fun _ => rfl⟩
      replaced := substitute_of_isIdentifier identifier }

/-- The settings of a search accept exactly the names that are usable, whatever else they mean. Of
the names that are read in a text, none is refused but the Greek letter. -/
theorem accepted_iff_usable (name : String) :
    (∀ settings : Root.Settings,
      (∃ accepted, settings.withVariableName name = .ok accepted) ↔ isIdentifier name = true) ∧
    (isIdentifier name = true ↔ Usable name) ∧
    ∀ source, Tree.read source = .ok (.name name) → name ≠ "π" → isIdentifier name = true := by
  refine ⟨exists_withVariableName_iff, usable_iff.symm, fun source read notPi => ?_⟩
  exact isIdentifier_iff.2 ⟨Tree.named_of_read read, notPi⟩

/-- The name `e5` is no exponent and no multiple of a constant. -/
theorem accepted_iff_usable_letter_and_digit :
    Usable "e5" ∧ Tree.read "e5" = .ok (.name "e5") ∧ "e5" ≠ "π" ∧ isIdentifier "e5" = true := by
  obtain ⟨-, usable, accepted⟩ := accepted_iff_usable "e5"
  have good : Usable "e5" := usable.1 (by decide)
  have notPi : "e5" ≠ "π" := by decide
  exact ⟨good, good.read, notPi, accepted "e5" good.read notPi⟩

end Stepwise.Formula
