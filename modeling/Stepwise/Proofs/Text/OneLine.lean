import Mathlib.Data.List.Basic
import Stepwise.Decimal.Text
import Stepwise.Proofs.Decimal.FixedText
import Stepwise.Proofs.Fraction.Text
import Stepwise.Text.Quoted

/-!
# Texts without line breaks

- `OneLine`: whether a text has no line break
- `Clean`: whether none of several lines has one
- the numbers that solutions show have none, and no quoted text has any
-/

namespace Stepwise

/-- A text without a line break. -/
def OneLine (text : String) : Prop := '\n' ∉ text.toList

instance : DecidablePred OneLine := fun text =>
  inferInstanceAs (Decidable ('\n' ∉ text.toList))

theorem oneLine_literal {cs : List Char} (free : cs.contains '\n' = false) :
    OneLine (String.ofList cs) := notMem_literal free

@[simp] theorem oneLine_append {first second : String} :
    OneLine (first ++ second) ↔ OneLine first ∧ OneLine second := by
  simp [OneLine, not_or]

theorem oneLine_join {parts : List String} :
    OneLine (String.join parts) ↔ ∀ part ∈ parts, OneLine part := by
  induction parts with
  | nil => simpa using (oneLine_literal rfl : OneLine "")
  | cons part parts ih => rw [String.join_cons, oneLine_append, ih, List.forall_mem_cons]

theorem oneLine_intercalate {separator : String} {parts : List String}
    (free : OneLine separator) (all : ∀ part ∈ parts, OneLine part) :
    OneLine (separator.intercalate parts) := notMem_intercalate free all

/-- Lines of which none has a line break. -/
def Clean (lines : List String) : Prop := ∀ line ∈ lines, OneLine line

@[simp] theorem clean_nil : Clean [] := List.forall_mem_nil _

@[simp] theorem clean_cons {line : String} {lines : List String} :
    Clean (line :: lines) ↔ OneLine line ∧ Clean lines := List.forall_mem_cons

@[simp] theorem clean_append {first second : List String} :
    Clean (first ++ second) ↔ Clean first ∧ Clean second := List.forall_mem_append

@[simp] theorem clean_flatten {parts : List (List String)} :
    Clean parts.flatten ↔ ∀ part ∈ parts, Clean part := List.forall_mem_flatten

/-! ## Numbers -/

theorem ne_newline_of_isDigit {c : Char} (digit : c.isDigit = true) : c ≠ '\n' := by
  rintro rfl
  cases digit

@[simp] theorem oneLine_nat (n : ℕ) : OneLine n.repr := fun member =>
  ne_newline_of_isDigit (Fraction.isDigit_of_mem_toString_nat member) rfl

theorem oneLine_int (n : ℤ) : OneLine n.repr := fun member => by
  obtain sign | digit := Fraction.mem_toString_int member
  · cases sign
  · exact ne_newline_of_isDigit digit rfl

@[simp] theorem oneLine_fraction (a : Fraction) : OneLine a.text := fun member => by
  obtain sign | stroke | digit := Fraction.mem_text member
  · cases sign
  · cases stroke
  · exact ne_newline_of_isDigit digit rfl

namespace Decimal

variable {c : Char}

theorem notMem_digits (other : c.isDigit = false) (n : ℕ) : c ∉ digits n := fun member => by
  rw [isDigit_of_mem_digits member] at other
  cases other

theorem notMem_pointed (other : c.isDigit = false) (point : c ≠ '.') (places n : ℕ) :
    c ∉ pointed places n := by
  have zero : c ≠ '0' := by
    rintro rfl
    cases other
  rw [pointed]
  split
  next => exact notMem_digits other n
  next => simp [notMem_digits other, point, zero]

theorem newline_notMem_scientific {ds : List Char} (free : '\n' ∉ ds) (power : ℤ) :
    '\n' ∉ scientific ds power := by
  have first : '\n' ∉ ds.take 1 := mt List.mem_of_mem_take free
  have others : '\n' ∉ ds.drop 1 := mt List.mem_of_mem_drop free
  have last : '\n' ∉ (toString power).toList := oneLine_int power
  rw [scientific]
  split
  next => simp only [List.mem_append, List.mem_cons, first, last]; decide
  next => simp only [List.mem_append, List.mem_cons, first, others, last]; decide

/-- A character that is in no word, is no sign, and is in no text of a magnitude. -/
theorem notMem_text {write : Magnitude → List Char}
    (words : ['-', 'N', 'a', 'N', 'i', 'n', 'f'].contains c = false) (free : ∀ m, c ∉ write m)
    (x : Binary64) : c ∉ (x.text write).toList := by
  obtain ⟨minus, nan, infinite⟩ : c ≠ '-' ∧ c ∉ ['N', 'a', 'N'] ∧ c ∉ ['i', 'n', 'f'] := by
    simp only [List.contains_eq_mem, decide_eq_false_iff_not, List.mem_cons, List.not_mem_nil,
      not_or] at words ⊢
    tauto
  have signed (negative : Bool) {digits : List Char} (clean : c ∉ digits) :
      c ∉ (Binary64.text.signed negative digits).toList := by
    cases negative <;> simpa [Binary64.text.signed, minus] using clean
  cases x with
  | nan => exact notMem_literal (by simpa using nan)
  | infinite negative => exact signed negative infinite
  | finite negative m => exact signed negative (free m)

theorem notMem_fixedText (words : ['-', 'N', 'a', 'N', 'i', 'n', 'f'].contains c = false)
    (other : c.isDigit = false) (point : c ≠ '.') (places : ℕ) (x : Float) :
    c ∉ (fixedText places x).toList :=
  notMem_text words (fun _ => notMem_pointed other point _ _) _

@[simp] theorem oneLine_fixedText (places : ℕ) (x : Float) : OneLine (fixedText places x) :=
  notMem_fixedText rfl rfl (by decide) places x

@[simp] theorem oneLine_plainText (x : Float) : OneLine (plainText x) :=
  notMem_text rfl (fun _ => notMem_pointed rfl (by decide) _ _) _

@[simp] theorem oneLine_scientificText (x : Float) : OneLine (scientificText x) :=
  notMem_text rfl (fun _ => newline_notMem_scientific (notMem_digits rfl _) _) _

end Decimal

@[simp] theorem FixedPlaces.oneLine_text (format : FixedPlaces) (x : Float) :
    OneLine (format.text x) := Decimal.oneLine_fixedText _ _

/-! ## Quoted texts -/

theorem newline_notMem_hexadecimal (n : ℕ) : '\n' ∉ Nat.toDigits 16 n := by
  have digit : ∀ d < 16, '\n' ≠ Nat.digitChar d := by decide
  induction n using Nat.strongRecOn with
  | ind n ih =>
    rcases Nat.lt_or_ge n 16 with lt | ge
    · rw [Nat.toDigits_of_lt_base lt, List.mem_singleton]
      exact digit n lt
    · rw [Nat.toDigits_of_base_le (by decide) ge, List.mem_append, List.mem_singleton, not_or]
      exact ⟨ih _ (by omega), digit _ (Nat.mod_lt _ (by decide))⟩

theorem newline_notMem_escape (c : Char) : '\n' ∉ Text.escape c := by
  rw [Text.escape.eq_def]
  split
  iterate 6 · decide
  next c _ _ newline _ _ _ =>
    split
    · simp [Text.escapeCodePoint, newline_notMem_hexadecimal]
    · rw [List.mem_singleton]
      exact fun same => newline same.symm

theorem oneLine_quoted (cs : List Char) : OneLine (String.ofList (Text.quoted cs)) := by
  simp [OneLine, Text.quoted, newline_notMem_escape]

end Stepwise
