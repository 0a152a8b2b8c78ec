import Mathlib
import Stepwise.Formula.Substitution
import Stepwise.Formula.Token

/-!
# Number literals and names

What a reader takes off the front of a text depends on the text behind it. Here the literals and
names are described by themselves, and each is shown to be read up to its end if nothing stands
behind it that would belong to it.

- `IsMantissa`, `IsExponent`, `IsName`: the shapes of what is read
- `literal?_append`, `name?_append`: such a part is read
- `shape_of_literal?`, `shape_of_name?`: nothing else is
-/

namespace Stepwise.Formula

/-! ## Characters by their code points -/

variable {c : Char}

theorem isDigit_iff : c.isDigit = true ↔ 48 ≤ c.toNat ∧ c.toNat ≤ 57 := by
  simp only [Char.isDigit, Bool.and_eq_true, decide_eq_true_eq, ge_iff_le, UInt32.le_iff_toNat_le]
  exact Iff.rfl

theorem isAlpha_iff :
    c.isAlpha = true ↔ 65 ≤ c.toNat ∧ c.toNat ≤ 90 ∨ 97 ≤ c.toNat ∧ c.toNat ≤ 122 := by
  simp only [Char.isAlpha, Char.isUpper, Char.isLower, Bool.or_eq_true, Bool.and_eq_true,
    decide_eq_true_eq, ge_iff_le, UInt32.le_iff_toNat_le]
  exact Iff.rfl

theorem eq_iff_toNat_eq {d : Char} : c = d ↔ c.toNat = d.toNat := Char.toNat_inj.symm

theorem isWordStart_iff : isWordStart c = true ↔
    65 ≤ c.toNat ∧ c.toNat ≤ 90 ∨ 97 ≤ c.toNat ∧ c.toNat ≤ 122 ∨ c.toNat = 95 := by
  rw [isWordStart, Bool.or_eq_true, isAlpha_iff, beq_iff_eq, eq_iff_toNat_eq, or_assoc]
  exact Iff.rfl

theorem isWordPart_iff : isWordPart c = true ↔
    isWordStart c = true ∨ 48 ≤ c.toNat ∧ c.toNat ≤ 57 := by
  rw [isWordPart, Char.isAlphanum, isWordStart, Bool.or_eq_true, Bool.or_eq_true, Bool.or_eq_true,
    isDigit_iff, or_right_comm]

theorem isNumeralPart_iff :
    isNumeralPart c = true ↔ 48 ≤ c.toNat ∧ c.toNat ≤ 57 ∨ c.toNat = 46 := by
  rw [isNumeralPart, Bool.or_eq_true, isDigit_iff, beq_iff_eq, eq_iff_toNat_eq]
  exact Iff.rfl

theorem isBlank_iff : isBlank c = true ↔
    c.toNat = 32 ∨ c.toNat = 9 ∨ c.toNat = 13 ∨ c.toNat = 10 := by
  simp only [isBlank, Bool.or_eq_true, beq_iff_eq, eq_iff_toNat_eq, or_assoc]
  exact Iff.rfl

theorem isExponentMark_iff : isExponentMark c = true ↔ c.toNat = 101 ∨ c.toNat = 69 := by
  simp only [isExponentMark, Bool.or_eq_true, beq_iff_eq, eq_iff_toNat_eq]
  exact Iff.rfl

theorem endsOperand_iff : endsOperand c = true ↔
    c.isAlpha = true ∨ c.isDigit = true ∨ c = '.' ∨ c = ')' := by
  simp only [endsOperand, Char.isAlphanum, Bool.or_eq_true, beq_iff_eq, or_assoc]

theorem endsOperand_of_isNumeralPart {c : Char} (numeral : isNumeralPart c = true) :
    endsOperand c = true := by
  simp only [isNumeralPart, Bool.or_eq_true, beq_iff_eq] at numeral
  rw [endsOperand_iff]
  rcases numeral with digit | point
  · exact .inr (.inl digit)
  · exact .inr (.inr (.inl point))

/-! ## The first character of a text -/

/-- The first character of a text, if it has one, is not of a kind. -/
def Avoids (kind : Char → Bool) (text : List Char) : Prop := ∀ c ∈ text.head?, kind c = false

variable {kind : Char → Bool} {text front rest : List Char}

@[simp] theorem avoids_nil : Avoids kind [] := by simp [Avoids]

@[simp] theorem avoids_cons : Avoids kind (c :: rest) ↔ kind c = false := by simp [Avoids]

theorem avoids_or_exists_cons (kind : Char → Bool) (text : List Char) :
    Avoids kind text ∨ ∃ c rest, text = c :: rest ∧ kind c = true := by
  cases text with
  | nil => exact .inl avoids_nil
  | cons c rest =>
    cases same : kind c with
    | false => exact .inl (avoids_cons.2 same)
    | true => exact .inr ⟨c, rest, rfl, same⟩

theorem Avoids.mono {kind' : Char → Bool} (avoids : Avoids kind text)
    (implies : ∀ c, kind' c = true → kind c = true) : Avoids kind' text := by
  intro c first
  have other := avoids c first
  cases same : kind' c with
  | false => rfl
  | true => rw [implies c same] at other; exact other

theorem Avoids.congr {kind : Char → Bool} {text text' : List Char}
    (same : text'.head? = text.head?) (avoids : Avoids kind text) : Avoids kind text' := by
  intro c first
  rw [same] at first
  exact avoids c first

theorem Avoids.of_append (avoids : Avoids kind (front ++ rest)) : Avoids kind front := by
  cases front with
  | nil => exact avoids_nil
  | cons c front => exact avoids_cons.2 (avoids_cons.1 avoids)

theorem avoids_dropWhile : Avoids kind (text.dropWhile kind) := by
  intro c first
  have stops := List.head?_dropWhile_not kind text
  rw [Option.mem_def.1 first] at stops
  exact stops

theorem takeWhile_append_of_avoids (all : ∀ c ∈ front, kind c = true) (avoids : Avoids kind rest) :
    (front ++ rest).takeWhile kind = front := by
  rw [List.takeWhile_append_of_pos all]
  cases rest with
  | nil => simp
  | cons c rest => simp [avoids_cons.1 avoids]

theorem dropWhile_append_of_avoids (all : ∀ c ∈ front, kind c = true) (avoids : Avoids kind rest) :
    (front ++ rest).dropWhile kind = rest := by
  rw [List.dropWhile_append_of_pos all]
  cases rest with
  | nil => rfl
  | cons c rest => simp [avoids_cons.1 avoids]

theorem dropWhile_eq_self_of_takeWhile (none : text.takeWhile kind = []) :
    text.dropWhile kind = text := by
  have parts := List.takeWhile_append_dropWhile (p := kind) (l := text)
  rwa [none, List.nil_append] at parts

theorem dropWhile_dropWhile {kind' : Char → Bool}
    (implies : ∀ c, kind c = true → kind' c = true) :
    (text.dropWhile kind).dropWhile kind' = text.dropWhile kind' := by
  induction text with
  | nil => rfl
  | cons c text ih =>
    cases same : kind c with
    | true => rw [List.dropWhile_cons_of_pos same, List.dropWhile_cons_of_pos (implies c same), ih]
    | false => rw [List.dropWhile_cons_of_neg (by simp [same])]

/-! ## Number literals -/

theorem splitMantissa_of_avoids (avoids : Avoids (· == '.') (text.dropWhile Char.isDigit)) :
    splitMantissa text = (text.takeWhile Char.isDigit, text.dropWhile Char.isDigit) := by
  simp only [splitMantissa]
  split
  next point =>
    rw [point, avoids_cons] at avoids
    cases avoids
  next => rfl

theorem splitMantissa_of_point (point : text.dropWhile Char.isDigit = '.' :: rest) :
    splitMantissa text =
      if text.takeWhile Char.isDigit = [] ∧ rest.takeWhile Char.isDigit = [] then ([], text)
      else (text.takeWhile Char.isDigit ++ '.' :: rest.takeWhile Char.isDigit,
        rest.dropWhile Char.isDigit) := by
  simp only [splitMantissa, point]
  simp only [Bool.and_eq_true, List.isEmpty_iff]

/-- The digits of a literal. -/
inductive IsMantissa : List Char → Prop where
  | whole {digits : List Char} (nonempty : digits ≠ []) (all : ∀ c ∈ digits, c.isDigit = true) :
    IsMantissa digits
  | pointed {whole part : List Char} (nonempty : whole ++ part ≠ [])
    (all : ∀ c ∈ whole ++ part, c.isDigit = true) : IsMantissa (whole ++ '.' :: part)

/-- The exponent of a literal; it may be missing. -/
inductive IsExponent : List Char → Prop where
  | none : IsExponent []
  | some {mark : Char} {sign digits : List Char} (isMark : isExponentMark mark = true)
    (isSign : sign = [] ∨ sign = ['+'] ∨ sign = ['-']) (nonempty : digits ≠ [])
    (all : ∀ c ∈ digits, c.isDigit = true) : IsExponent (mark :: sign ++ digits)

namespace IsMantissa

theorem ne_nil (mantissa : IsMantissa text) : text ≠ [] := by
  cases mantissa with
  | whole nonempty => exact nonempty
  | pointed => simp

theorem digit (isDigit : c.isDigit = true) : IsMantissa [c] :=
  .whole (List.cons_ne_nil c []) (List.forall_mem_singleton.2 isDigit)

theorem all (mantissa : IsMantissa text) : ∀ c ∈ text, isNumeralPart c = true := by
  intro c member
  rw [isNumeralPart_iff]
  cases mantissa with
  | whole _ all => exact .inl (isDigit_iff.1 (all c member))
  | pointed _ all =>
    rcases List.mem_append.1 member with before | behind
    · exact .inl (isDigit_iff.1 (all c (List.mem_append_left _ before)))
    · rcases List.mem_cons.1 behind with rfl | behind
      · exact .inr rfl
      · exact .inl (isDigit_iff.1 (all c (List.mem_append_right _ behind)))

theorem splitMantissa_eq (mantissa : IsMantissa text) (avoids : Avoids isNumeralPart rest) :
    splitMantissa (text ++ rest) = (text, rest) := by
  have noDigit : Avoids Char.isDigit rest := avoids.mono fun c digit =>
    isNumeralPart_iff.2 (.inl (isDigit_iff.1 digit))
  cases mantissa with
  | whole nonempty all =>
    simp only [splitMantissa, takeWhile_append_of_avoids all noDigit,
      dropWhile_append_of_avoids all noDigit]
    split
    next behind => exact absurd (avoids_cons.1 avoids) (by decide)
    next => rfl
  | @pointed whole part nonempty all =>
    have before : ∀ c ∈ whole, c.isDigit = true := fun c member =>
      all c (List.mem_append_left _ member)
    have behind : ∀ c ∈ part, c.isDigit = true := fun c member =>
      all c (List.mem_append_right _ member)
    have point : Avoids Char.isDigit ('.' :: (part ++ rest)) := avoids_cons.2 (by decide)
    simp only [splitMantissa, List.append_assoc, List.cons_append,
      takeWhile_append_of_avoids before point, dropWhile_append_of_avoids before point,
      takeWhile_append_of_avoids behind noDigit, dropWhile_append_of_avoids behind noDigit]
    rw [if_neg (by simpa [List.isEmpty_iff] using nonempty)]

end IsMantissa

theorem isMantissa_splitMantissa (found : (splitMantissa text).1 ≠ []) :
    IsMantissa (splitMantissa text).1 := by
  have digits (text : List Char) : ∀ c ∈ text.takeWhile Char.isDigit, c.isDigit = true :=
    fun _ => List.mem_takeWhile_imp
  simp only [splitMantissa] at found ⊢
  split at found
  next rest point =>
    split at found
    next => exact absurd rfl found
    next some =>
      simp only [if_neg some]
      refine .pointed ?_ ?_
      · simpa [List.isEmpty_iff] using some
      · intro c member
        rcases List.mem_append.1 member with before | behind
        · exact digits _ c before
        · exact digits _ c behind
  next => exact .whole found (digits text)

/-- Digits begin with no sign, so a missing sign is not taken from them. -/
theorem splitSign_append_digits {sign digits : List Char}
    (isSign : sign = [] ∨ sign = ['+'] ∨ sign = ['-']) (nonempty : digits ≠ [])
    (all : ∀ c ∈ digits, c.isDigit = true) (rest : List Char) :
    splitSign (sign ++ (digits ++ rest)) = (sign, digits ++ rest) := by
  rcases isSign with rfl | rfl | rfl
  · cases digits with
    | nil => exact absurd rfl nonempty
    | cons d digits =>
      have digit := isDigit_iff.1 (all d List.mem_cons_self)
      have plus : d ≠ '+' := by
        rintro rfl
        exact absurd digit (by decide)
      have minus : d ≠ '-' := by
        rintro rfl
        exact absurd digit (by decide)
      simp [splitSign, plus, minus]
  · rfl
  · rfl

namespace IsExponent

theorem splitExponent_of_ne_nil (exponent : IsExponent text) (found : text ≠ [])
    (avoids : Avoids Char.isDigit rest) : splitExponent (text ++ rest) = (text, rest) := by
  cases exponent with
  | none => exact absurd rfl found
  | @some mark sign digits isMark isSign nonempty all =>
    have split := splitSign_append_digits isSign nonempty all rest
    simp only [List.cons_append, List.append_assoc, splitExponent, split,
      takeWhile_append_of_avoids all avoids, dropWhile_append_of_avoids all avoids]
    rw [if_pos (by simp [isMark, nonempty])]

end IsExponent

theorem isExponent_splitExponent (text : List Char) : IsExponent (splitExponent text).1 := by
  cases text with
  | nil => exact .none
  | cons mark rest =>
    simp only [splitExponent]
    split
    next found =>
      simp only [Bool.and_eq_true, Bool.not_eq_true', List.isEmpty_eq_false_iff] at found
      refine .some found.1 ?_ found.2 fun _ => List.mem_takeWhile_imp
      cases rest with
      | nil => exact .inl rfl
      | cons c rest =>
        simp only [splitSign]
        split
        next sign => simpa using sign
        next => exact .inl rfl
    next => exact .none

theorem splitExponent_eq_nil (avoids : Avoids isExponentMark text) :
    (splitExponent text).1 = [] := by
  cases text with
  | nil => rfl
  | cons c text => simp [splitExponent, avoids_cons.1 avoids]

theorem splitExponent_cons {mark : Char} (isMark : isExponentMark mark = true) :
    (splitExponent (mark :: text)).1 = [] ↔ Avoids Char.isDigit (splitSign text).2 := by
  simp only [splitExponent, isMark, Bool.true_and]
  cases (splitSign text).2 with
  | nil => simp
  | cons d digits =>
    cases digit : d.isDigit with
    | true => simp [digit]
    | false => simp [digit]

/-- Where there is no exponent, there is none if the text ends earlier. -/
theorem splitExponent_of_append (absent : (splitExponent (front ++ rest)).1 = []) :
    (splitExponent front).1 = [] := by
  cases front with
  | nil => rfl
  | cons mark front =>
    cases isMark : isExponentMark mark with
    | false => exact splitExponent_eq_nil (avoids_cons.2 isMark)
    | true =>
      rw [List.cons_append, splitExponent_cons isMark] at absent
      rw [splitExponent_cons isMark]
      cases front with
      | nil => exact avoids_nil
      | cons c front =>
        simp only [List.cons_append, splitSign] at absent ⊢
        split at absent
        next sign => simpa only [if_pos sign] using absent.of_append
        next noSign => simpa only [if_neg noSign, avoids_cons] using absent

theorem avoids_splitSign (avoids : Avoids Char.isDigit text)
    (noSign : Avoids (fun c => c == '+' || c == '-') text) :
    Avoids Char.isDigit (splitSign text).2 := by
  cases text with
  | nil => exact avoids
  | cons c text =>
    rw [avoids_cons] at noSign
    simp only [splitSign, noSign, Bool.false_eq_true, if_false]
    exact avoids

variable {mantissa exponent : List Char}

/-- An exponent, or what follows in its place, is no part of the digits. -/
theorem IsExponent.avoids_append (isExponent : IsExponent exponent)
    (avoids : Avoids isNumeralPart rest) : Avoids isNumeralPart (exponent ++ rest) := by
  cases isExponent with
  | none => exact avoids
  | @some mark sign digits isMark =>
    have code := isExponentMark_iff.1 isMark
    rw [List.cons_append, List.cons_append, avoids_cons, ← Bool.not_eq_true, isNumeralPart_iff]
    omega

theorem IsExponent.splitExponent_eq (isExponent : IsExponent exponent)
    (avoids : Avoids isNumeralPart rest)
    (absent : exponent = [] → (splitExponent rest).1 = []) :
    splitExponent (exponent ++ rest) = (exponent, rest) := by
  rcases eq_or_ne exponent [] with rfl | found
  · have whole := splitExponent_append rest
    rw [absent rfl, List.nil_append] at whole
    exact Prod.ext (absent rfl) whole
  · exact isExponent.splitExponent_of_ne_nil found (avoids.mono fun c digit =>
      isNumeralPart_iff.2 (.inl (isDigit_iff.1 digit)))

/-- A number ends an operand. -/
theorem exists_last_of_digits {digits : List Char} (isExponent : IsExponent exponent)
    (nonempty : digits ≠ []) (all : ∀ d ∈ digits, isNumeralPart d = true) :
    ∃ c, (digits ++ exponent).getLast? = some c ∧ endsOperand c = true := by
  cases isExponent with
  | none =>
    rw [List.append_nil]
    exact ⟨_, List.getLast?_eq_some_getLast nonempty,
      endsOperand_of_isNumeralPart (all _ (List.getLast_mem _))⟩
  | @some mark sign digits isMark isSign nonempty all =>
    refine ⟨digits.getLast nonempty, ?_, ?_⟩
    · simp [List.getLast?_append, List.getLast?_cons, List.getLast?_eq_some_getLast nonempty]
    · exact endsOperand_iff.2 (.inr (.inl (all _ (List.getLast_mem _))))

theorem literal?_append (isMantissa : IsMantissa mantissa) (isExponent : IsExponent exponent)
    (avoids : Avoids isNumeralPart rest)
    (absent : exponent = [] → (splitExponent rest).1 = []) :
    ∃ shorter, literal? (mantissa ++ exponent ++ rest) =
      some ⟨mantissa ++ exponent, rest, shorter⟩ := by
  have first : splitMantissa (mantissa ++ exponent ++ rest) = (mantissa, exponent ++ rest) := by
    rw [List.append_assoc]
    exact isMantissa.splitMantissa_eq (isExponent.avoids_append avoids)
  have second := isExponent.splitExponent_eq avoids absent
  refine ⟨?_, ?_⟩
  · have positive := List.length_pos_iff.2 isMantissa.ne_nil
    simp only [List.length_append]
    omega
  · rw [literal?, dif_neg (by rw [first]; exact isMantissa.ne_nil)]
    simp only [first, second]

theorem shape_of_literal? {literal : Consumed (List Char) text}
    (read : literal? text = some literal) :
    ∃ mantissa exponent, IsMantissa mantissa ∧ IsExponent exponent ∧
      literal.value = mantissa ++ exponent ∧ text = mantissa ++ exponent ++ literal.rest ∧
      (exponent = [] → (splitExponent literal.rest).1 = []) := by
  rw [literal?] at read
  split at read
  next => cases read
  next found =>
    cases read
    have isMantissa := isMantissa_splitMantissa found
    have whole := splitExponent_append (splitMantissa text).2
    refine ⟨_, _, isMantissa, isExponent_splitExponent _, rfl, ?_, ?_⟩
    · rw [List.append_assoc, whole, splitMantissa_append]
    · intro absent
      rw [absent, List.nil_append] at whole
      simp only [whole, absent]

theorem literal?_eq_none (avoids : Avoids isNumeralPart text) : literal? text = none := by
  rw [literal?, dif_pos]
  cases text with
  | nil => rfl
  | cons c text =>
    have other := avoids_cons.1 avoids
    simp only [isNumeralPart, Bool.or_eq_false_iff, beq_eq_false_iff_ne] at other
    simp only [splitMantissa, List.dropWhile_cons, List.takeWhile_cons, other.1]
    split
    next point => exact absurd (List.cons.inj point).1 other.2
    next => rfl

/-! ## Names -/

/-- A name: the Greek letter that names a constant, or a word. -/
inductive IsName : List Char → Prop where
  | pi : IsName ['π']
  | word {c : Char} {rest : List Char} (start : isWordStart c = true)
    (parts : ∀ d ∈ rest, isWordPart d = true) : IsName (c :: rest)

variable {word : List Char}

theorem IsName.letter (start : isWordStart c = true) : IsName [c] := .word start nofun

theorem IsName.ne_nil (name : IsName word) : word ≠ [] := by
  cases name <;> simp

theorem IsName.splitName_eq (name : IsName word)
    (ends : word = ['π'] ∨ Avoids isWordPart rest) : splitName (word ++ rest) = (word, rest) := by
  cases name with
  | pi => rfl
  | @word c parts start all =>
    have other : (c == 'π') = false := by
      have code := isWordStart_iff.1 start
      rw [beq_eq_false_iff_ne]
      rintro rfl
      revert code
      decide
    have avoids : Avoids isWordPart rest := by
      rcases ends with pi | avoids
      · rw [(List.cons.inj pi).1] at other
        exact absurd other (by decide)
      · exact avoids
    simp [splitName, other, start, takeWhile_append_of_avoids all avoids,
      dropWhile_append_of_avoids all avoids]

theorem name?_append (name : IsName word) (ends : word = ['π'] ∨ Avoids isWordPart rest) :
    ∃ shorter, name? (word ++ rest) = some ⟨String.ofList word, rest, shorter⟩ := by
  have split := name.splitName_eq ends
  refine ⟨?_, ?_⟩
  · have positive := List.length_pos_iff.2 name.ne_nil
    rw [List.length_append]
    omega
  · rw [name?, dif_neg (by rw [split]; exact name.ne_nil)]
    simp [split]

theorem shape_of_name? {name : Consumed String text} (read : name? text = some name) :
    ∃ word, IsName word ∧ name.value = String.ofList word ∧ text = word ++ name.rest ∧
      (word = ['π'] ∨ Avoids isWordPart name.rest) := by
  rw [name?] at read
  split at read
  next => cases read
  next found =>
    cases read
    refine ⟨(splitName text).1, ?_, rfl, (splitName_append text).symm, ?_⟩
    · cases text with
      | nil => exact absurd rfl found
      | cons c text =>
        simp only [splitName] at found ⊢
        split
        next pi => rw [eq_of_beq pi]; exact .pi
        next =>
          split
          next start => exact .word start fun _ => List.mem_takeWhile_imp
          next other => simp_all
    · cases text with
      | nil => exact absurd rfl found
      | cons c text =>
        simp only [splitName] at found ⊢
        split
        next pi => rw [eq_of_beq pi]; exact .inl rfl
        next =>
          split
          next => exact .inr avoids_dropWhile
          next other => simp_all

/-- What starts no name. -/
theorem name?_eq_none (start : isWordStart c = false) (pi : c ≠ 'π') :
    name? (c :: rest) = none := by
  rw [name?, dif_pos]
  simp [splitName, start, pi]

/-! ## Blanks and symbols -/

theorem isSuffix_skipBlanks (text : List Char) : skipBlanks text <:+ text :=
  List.dropWhile_suffix _

theorem skipBlanks_append {blanks : List Char} (blank : ∀ c ∈ blanks, isBlank c = true)
    (avoids : Avoids isBlank rest) : skipBlanks (blanks ++ rest) = rest :=
  dropWhile_append_of_avoids blank avoids

variable {α : Type} {table : Char → Option α} {blanks : List Char}

theorem symbol?_append {value : α} (blank : ∀ c ∈ blanks, isBlank c = true)
    (visible : isBlank c = false) (meaning : table c = some value) :
    ∃ shorter, symbol? table (blanks ++ c :: rest) = some ⟨value, rest, shorter⟩ := by
  have skipped : skipBlanks (blanks ++ c :: rest) = c :: rest :=
    skipBlanks_append blank (avoids_cons.2 visible)
  refine ⟨?_, ?_⟩
  · rw [List.length_append, List.length_cons]
    omega
  · rw [symbol?]
    split
    next empty => rw [skipped] at empty; cases empty
    next other =>
      rw [skipped] at other
      cases other
      rw [meaning]
      rfl

theorem symbol?_eq_none (meaningless : ∀ c ∈ (skipBlanks text).head?, table c = none) :
    symbol? table text = none := by
  rw [symbol?]
  split
  next => rfl
  next c rest start =>
    rw [meaningless c (by rw [start]; rfl)]
    rfl

theorem symbol?_append_eq_none (blank : ∀ b ∈ blanks, isBlank b = true)
    (visible : isBlank c = false) (meaningless : table c = none) :
    symbol? table (blanks ++ c :: rest) = none := by
  apply symbol?_eq_none
  intro d first
  rw [skipBlanks_append blank (avoids_cons.2 visible)] at first
  cases first
  exact meaningless

theorem exists_cons_of_symbol? {symbol : Consumed α text}
    (read : symbol? table text = some symbol) :
    ∃ c, skipBlanks text = c :: symbol.rest ∧ table c = some symbol.value := by
  rw [symbol?] at read
  split at read
  next => cases read
  next c rest start =>
    obtain ⟨value, meaning, rfl⟩ := Option.map_eq_some_iff.1 read
    exact ⟨c, start, meaning⟩

theorem shape_of_symbol? {symbol : Consumed α text} (read : symbol? table text = some symbol) :
    ∃ blanks c, (∀ b ∈ blanks, isBlank b = true) ∧ table c = some symbol.value ∧
      text = blanks ++ c :: symbol.rest := by
  obtain ⟨c, start, meaning⟩ := exists_cons_of_symbol? read
  refine ⟨text.takeWhile isBlank, c, fun _ => List.mem_takeWhile_imp, meaning, ?_⟩
  rw [← start]
  exact List.takeWhile_append_dropWhile.symm

/-- Where no symbol of a table is in front, none in particular is. -/
theorem avoids_of_symbol? (absent : symbol? table text = none) (meaning : (table c).isSome = true) :
    Avoids (· == c) (skipBlanks text) := by
  rw [symbol?] at absent
  split at absent
  next empty =>
    rw [empty]
    exact avoids_nil
  next d rest start =>
    rw [start, avoids_cons, beq_eq_false_iff_ne]
    rintro rfl
    obtain ⟨value, meaning⟩ := Option.isSome_iff_exists.1 meaning
    rw [meaning] at absent
    cases absent

theorem isSuffix_of_symbol? {symbol : Consumed α text} (read : symbol? table text = some symbol) :
    symbol.rest <:+ text := by
  obtain ⟨blanks, c, -, -, parts⟩ := shape_of_symbol? read
  exact ⟨blanks ++ [c], by simp [parts]⟩

end Stepwise.Formula
