import Stepwise.Proofs.Formula.Failures
import Stepwise.Proofs.Formula.Grammar

/-!
# Texts that are refused

Parsers that call each other as the grammar says do what the readers do. So each text comes to an
end, and what is told of a text that is refused is told for a reason.

- `Grammar.agrees`: the parsers of a grammar agree with the readers
- `readers`: there is a grammar, that of the readers
- `Grammar.parse`: reads a complete formula
- `Grammar.parse_locates`: what is wrong with a text, and where
-/

namespace Stepwise.Formula

/-- What a reader returns, as a parser has it. Wherever a reader fails, a character is missing. -/
def Reading.parsed {text : List Char} : Reading text → Parsed Tree
  | .ok c => .success c.value c.rest
  | .error stop => .failure ⟨stop, .char⟩

/-- What becomes of a product. -/
def extensionParsed {text : List Char} : Except (List Char) (Extended text) → Parsed Tree
  | .ok e => .success e.tree e.rest
  | .error stop => .failure ⟨stop, .char⟩

/-- On shorter texts, a parser does what a reader does. -/
def AgreesBelow (text : List Char) (p : Parser Tree)
    (read : (text : List Char) → Reading text) : Prop :=
  ∀ rest, rest.length < text.length → p rest = (read rest).parsed

/-- On shorter texts, parsers go on with a product as the reader does. -/
def ExtendsBelow (text : List Char) (factors : Tree → Parser Tree) : Prop :=
  ∀ rest, rest.length < text.length → ∀ product,
    factors product rest = extensionParsed (extendProduct product rest)

section

variable {c : Combinators} {text shorter : List Char}

theorem AgreesBelow.mono {p : Parser Tree} {read : (text : List Char) → Reading text}
    (agrees : AgreesBelow text p read) (le : shorter.length ≤ text.length) :
    AgreesBelow shorter p read :=
  fun rest less => agrees rest (less.trans_le le)

namespace Combinators.Documented

variable (documented : c.Documented)

include documented

/-! ## Rules -/

variable {expr unary : Parser Tree} {factors : Tree → Parser Tree}

theorem group_eq (inside : AgreesBelow text expr readSum) :
    c.group expr text = (readGroup text).parsed := by
  rw [group, documented.delimited, documented.char]
  unfold readGroup
  split
  next rest =>
    rw [readChar_self, Parsed.andThen_success, inside rest (Nat.lt_succ_self _)]
    cases readSum rest with
    | error stop => rfl
    | ok inner =>
      simp only [Reading.parsed, Parsed.andThen_success]
      cases closed : symbol? closing inner.rest with
      | none =>
        rw [documented.symbol_of_none closed rfl]
        rfl
      | some mark =>
        rw [documented.symbol_of_some (fun _ _ => closing_eq_some) closed]
        rfl
  next other =>
    rw [readChar_of_avoids]
    · rfl
    intro d first
    rw [beq_eq_false_iff_ne]
    rintro rfl
    obtain ⟨rest, rfl⟩ := List.head?_eq_some_iff.1 first
    exact other rest rfl

theorem atom_eq (inside : AgreesBelow text expr readSum) :
    c.atom expr text = (readAtom text).parsed := by
  have notLonger := length_skipBlanks_le text
  rw [atom, documented.preceded_multispace0, documented.alt_cons, documented.alt_cons,
    documented.alt_cons, documented.alt_singleton, readAtom]
  split
  next literal found =>
    rw [documented.number_of_some found]
    rfl
  next absent =>
    obtain ⟨f, failed⟩ := documented.number_of_none absent
    rw [failed, Parsed.orElse_failure]
    split
    next name found =>
      obtain ⟨word, identified, value⟩ := documented.identifier_of_some found
      have shorter := name.shorter
      have argument : c.group expr name.rest = (readGroup name.rest).parsed :=
        documented.group_eq (inside.mono (by omega))
      rw [call, identified, Parsed.andThen_success, argument]
      split
      next failed =>
        rw [failed, Combinators.name, documented.map, identified]
        simp only [Reading.parsed, Parsed.andThen_failure, Parsed.orElse_failure]
        rw [value]
        rfl
      next argument read =>
        rw [read, value]
        rfl
    next absent =>
      obtain ⟨f, failed⟩ := documented.identifier_of_none absent
      rw [call, Combinators.name, documented.map, failed]
      simp only [Parsed.andThen_failure, Parsed.orElse_failure]
      rw [documented.group_eq (inside.mono notLonger)]
      split
      next failed => rw [failed]; rfl
      next inner read => rw [read]; rfl

theorem power_eq (inside : AgreesBelow text expr readSum)
    (operand : AgreesBelow text unary readSigned) :
    c.power expr unary text = (readPower text).parsed := by
  rw [power, documented.atom_eq inside, readPower]
  split
  next failed => rw [failed]; rfl
  next base read =>
    rw [read]
    simp only [Reading.parsed, Parsed.andThen_success]
    have shorter := base.shorter
    cases found : symbol? caret base.rest with
    | none => rw [documented.symbol_of_none found rfl]
    | some mark =>
      have shorter' := mark.shorter
      rw [documented.symbol_of_some (fun _ _ => caret_eq_some) found]
      simp only [operand mark.rest (by omega)]
      cases readSigned mark.rest <;> rfl

theorem signed_eq (inside : AgreesBelow text expr readSum)
    (operand : AgreesBelow text unary readSigned) :
    c.signed expr unary text = (readSigned text).parsed := by
  have unsigned := documented.power_eq inside operand
  rw [signed, documented.alt_cons, documented.alt_cons, documented.alt_singleton, documented.map,
    documented.preceded, documented.preceded, documented.symbol_eq, documented.symbol_eq, unsigned,
    readSigned]
  cases found : symbol? sign text with
  | none =>
    rw [readChar_of_avoids (avoids_of_symbol? (c := '-') found rfl),
      readChar_of_avoids (avoids_of_symbol? (c := '+') found rfl)]
    rfl
  | some mark =>
    have read := operand mark.rest mark.shorter
    obtain ⟨s, start, meaning⟩ := exists_cons_of_symbol? found
    obtain ⟨symbol, closed⟩ := marks_sign s _ meaning
    -- A sign without an operand is no power either, and this is what is told.
    have unread : readPower text = .error (skipBlanks text) := by
      rw [start]
      exact readPower_eq_error start symbol (readGroup_of_avoids (avoids_cons.2 closed))
    rw [unread, start]
    dsimp only
    unfold sign at meaning
    split at meaning
    · rw [readChar_self, Parsed.andThen_success, read, ← Option.some.inj meaning]
      cases readSigned mark.rest <;> rfl
    · rw [readChar_self, readChar_of_avoids (avoids_cons.2 rfl), Parsed.andThen_success, read,
        ← Option.some.inj meaning]
      cases readSigned mark.rest <;> rfl
    · cases meaning

theorem nextFactor_eq
    (inside : AgreesBelow text expr readSum)
    (operand : AgreesBelow text unary readSigned)
    (later : ExtendsBelow text factors) (product : Tree) :
    c.nextFactor expr unary factors product text =
      extensionParsed (extendProduct product text) := by
  rw [nextFactor, extendProduct]
  cases found : symbol? productOperator text with
  | some operator =>
    have shorter := operator.shorter
    rw [documented.timesOrOver_of_some found]
    simp only [operand operator.rest shorter]
    cases readSigned operator.rest with
    | error stop => rfl
    | ok next =>
      simp only [Reading.parsed, Parsed.andThen_success]
      rw [later next.rest (next.shorter.trans shorter)]
      cases extendProduct (.binary operator.value product next.value) next.rest <;> rfl
  | none =>
    obtain ⟨f, failed⟩ := documented.timesOrOver_of_none found
    rw [failed]
    simp only
    split
    next =>
      rw [documented.power_eq inside operand]
      cases readPower text with
      | error stop => rfl
      | ok next =>
        simp only [Reading.parsed, Parsed.andThen_success]
        rw [later next.rest next.shorter]
        cases extendProduct (.binary .multiply product next.value) next.rest <;> rfl
    next => rfl

omit documented in
theorem term_eq (operand : unary text = (readSigned text).parsed)
    (later : ExtendsBelow text factors) :
    term unary factors text = (readProduct text).parsed := by
  rw [term, operand, readProduct]
  cases readSigned text with
  | error stop => rfl
  | ok first =>
    simp only [Reading.parsed, Parsed.andThen_success]
    rw [later first.rest first.shorter]
    cases extendProduct first.value first.rest <;> rfl

theorem foldMany0_eq {term : Parser Tree} (text : List Char) (sum : Tree)
    (terms : AgreesBelow text term readProduct) :
    c.foldMany0 (c.pair c.plusOrMinus term) sum
        (fun sum (sign, next) => .binary (if sign = '+' then .add else .subtract) sum next) text =
      .success (extendSum sum text).tree (extendSum sum text).rest := by
  induction size : text.length using Nat.strong_induction_on generalizing text sum with
  | _ size ih =>
    subst size
    rw [extendSum]
    cases found : symbol? sumOperator text with
    | none =>
      obtain ⟨f, failed⟩ := documented.plusOrMinus_of_none found
      apply documented.foldMany0_failure
      rw [documented.pair, failed, Parsed.andThen_failure]
    | some operator =>
      obtain ⟨sign, read, meaning⟩ := documented.plusOrMinus_of_some found
      have shorter := operator.shorter
      dsimp only
      cases readNext : readProduct operator.rest with
      | error stop =>
        apply documented.foldMany0_failure
        rw [documented.pair, read, Parsed.andThen_success, terms operator.rest shorter, readNext]
        rfl
      | ok next =>
        have shorter' := next.shorter.trans shorter
        rw [documented.foldMany0_success (a := (sign, next.value)) _ _ _ shorter']
        · rw [ih _ shorter' _ _ (terms.mono shorter'.le) rfl, meaning]
        · rw [documented.pair, read, Parsed.andThen_success, terms operator.rest shorter, readNext]
          rfl

theorem sum_eq (here : unary text = (readSigned text).parsed)
    (operand : AgreesBelow text unary readSigned)
    (later : ExtendsBelow text factors) :
    c.sum unary factors text = (readSum text).parsed := by
  have terms : AgreesBelow text (term unary factors) readProduct := fun rest less =>
    term_eq (operand rest less) fun rest' less' => later rest' (less'.trans less)
  rw [sum, term_eq here later, readSum]
  cases readProduct text with
  | error stop => rfl
  | ok first =>
    simp only [Reading.parsed, Parsed.andThen_success]
    exact documented.foldMany0_eq first.rest first.value (terms.mono first.shorter.le)

end Combinators.Documented

/-! ## Grammars -/

/-- The parsers do with a text what the readers do. -/
structure Grammar.Agrees (g : Grammar c) (text : List Char) : Prop where
  expr : g.expr text = (readSum text).parsed
  unary : g.unary text = (readSigned text).parsed
  factors (product : Tree) : g.factors product text = extensionParsed (extendProduct product text)

theorem Grammar.agrees (g : Grammar c) (documented : c.Documented) (text : List Char) :
    g.Agrees text := by
  induction size : text.length using Nat.strong_induction_on generalizing text with
  | _ size ih =>
    subst size
    have inside : AgreesBelow text g.expr readSum := fun rest less => (ih _ less rest rfl).expr
    have operand : AgreesBelow text g.unary readSigned := fun rest less =>
      (ih _ less rest rfl).unary
    have later : ExtendsBelow text g.factors := fun rest less => (ih _ less rest rfl).factors
    have here : g.unary text = (readSigned text).parsed := by
      rw [g.unary_eq]
      exact documented.signed_eq inside operand
    refine ⟨?_, here, fun product => ?_⟩
    · rw [g.expr_eq]
      exact documented.sum_eq here operand later
    · rw [g.factors_eq]
      exact documented.nextFactor_eq inside operand later product

/-- The readers satisfy the equations themselves. -/
def readers (documented : c.Documented) : Grammar c where
  expr text := (readSum text).parsed
  unary text := (readSigned text).parsed
  factors product text := extensionParsed (extendProduct product text)
  expr_eq := funext fun _ =>
    (documented.sum_eq rfl (fun _ _ => rfl) fun _ _ _ => rfl).symm
  unary_eq := funext fun _ => (documented.signed_eq (fun _ _ => rfl) fun _ _ => rfl).symm
  factors_eq product := funext fun _ =>
    (documented.nextFactor_eq (fun _ _ => rfl) (fun _ _ => rfl) (fun _ _ _ => rfl) product).symm

/-! ## Whole texts -/

/-- Why a text is no formula. -/
inductive Refusal where
  | failed (failure : Failure)
  | unconsumed (left : String)

/-- The wording of a refusal. -/
def Refusal.message : Refusal → String
  | .failed failure => "invalid syntax: " ++ failure.message
  | .unconsumed left => "unexpected input: " ++ left

/-- Reads a complete formula, and no text behind it; nothing if that does not come to an end. -/
def Grammar.parse (g : Grammar c) (source : String) : Option (Except Refusal Tree) :=
  match g.expr source.toList with
  | .success tree rest =>
    match Text.trim rest with
    | [] => some (.ok tree)
    | left => some (.error (.unconsumed (String.ofList left)))
  | .failure failure => some (.error (.failed failure))
  | .endless => none

theorem Grammar.parse_cases (g : Grammar c) (documented : c.Documented) (source : String) :
    (∃ tree, Tree.read source = .ok tree ∧ g.parse source = some (.ok tree)) ∨
    (∃ stop, Tree.read source = .error (.malformed stop) ∧
      g.parse source = some (.error (.failed ⟨stop.toList, .char⟩))) ∨
    ∃ left, Tree.read source = .error (.leftover left) ∧
      g.parse source = some (.error (.unconsumed left)) := by
  have agrees := (g.agrees documented source.toList).expr
  rw [Grammar.parse, Tree.read, agrees]
  cases readSum source.toList with
  | error stop =>
    refine .inr (.inl ⟨_, rfl, ?_⟩)
    rw [String.toList_ofList]
    rfl
  | ok formula =>
    simp only [Reading.parsed]
    cases Text.trim formula.rest with
    | nil => exact .inl ⟨_, rfl, rfl⟩
    | cons first left => exact .inr (.inr ⟨_, rfl, rfl⟩)

theorem message_malformed (stop : String) :
    (Error.malformed stop).message = (Refusal.failed ⟨stop.toList, .char⟩).message := by
  let shown := String.ofList (Text.quoted stop.toList)
  change "invalid syntax: Parsing Error: Error \x7b input: " ++ shown ++ ", code: Char \x7d" =
    "invalid syntax: " ++
      ("Parsing Error: Error \x7b input: " ++ shown ++ ", code: " ++ "Char" ++ " \x7d")
  apply String.toList_injective
  simp

/-- Every text comes to an end, and to the same end as with the reader. A failure is always that of
a missing character; it is at the end of the text, from a character on that is not blank. Where some
text is left over, the text before it is a formula of its own. -/
theorem Grammar.parse_locates (g : Grammar c) (documented : c.Documented) (source : String) :
    ∃ result, g.parse source = some result ∧
      result.mapError Refusal.message = (Tree.read source).mapError Error.message ∧
      (∀ failure, result = .error (.failed failure) →
        failure.kind = .char ∧ failure.rest <:+ source.toList ∧ Avoids isBlank failure.rest) ∧
      ∀ left, result = .error (.unconsumed left) → left ≠ "" ∧
        ∃ front behind tree, source = front ++ behind ∧
          left = String.ofList (Text.trim behind.toList) ∧ g.parse front = some (.ok tree) := by
  obtain ⟨tree, read, parsed⟩ | ⟨stop, read, parsed⟩ | ⟨left, read, parsed⟩ :=
    g.parse_cases documented source
  · refine ⟨_, parsed, ?_, ?_, ?_⟩
    · rw [read]
      rfl
    · rintro _ ⟨⟩
    · rintro _ ⟨⟩
  · refine ⟨_, parsed, ?_, ?_, ?_⟩
    · rw [read]
      exact congrArg Except.error (message_malformed stop).symm
    · rintro _ ⟨⟩
      have stops := Tree.stops_of_malformed read
      exact ⟨rfl, stops.isSuffix, stops.visible⟩
    · rintro _ ⟨⟩
  · refine ⟨_, parsed, ?_, ?_, ?_⟩
    · rw [read]
      rfl
    · rintro _ ⟨⟩
    · rintro _ ⟨⟩
      obtain ⟨nonempty, front, behind, tree, split, trimmed, readFront⟩ :=
        Tree.read_of_leftover read
      refine ⟨nonempty, front, behind, tree, split, trimmed, ?_⟩
      obtain ⟨_, read', parsed'⟩ | ⟨_, read', -⟩ | ⟨_, read', -⟩ :=
        g.parse_cases documented front
      · rw [readFront] at read'
        cases read'
        exact parsed'
      all_goals
        rw [readFront] at read'
        cases read'

/-- A second point ends a number, and nothing goes on with it. -/
theorem read_second_point : Tree.read "1.2.3" = .error (.leftover ".3") := by
  let one_two : Tree := .number (literalValue ['1', '.', '2'])
  have atom : Gives (readAtom "1.2.3".toList) one_two ['.', '3'] :=
    readAtom_of_literal rfl ⟨by decide, rfl⟩
  have signed := readSigned_of_power (readPower_of_atom atom rfl) rfl
  obtain ⟨shorter, read⟩ :=
    readSum_of_product (readProduct_of_signed signed (extendProduct_of_end rfl rfl))
  have rest : (extendSum one_two ['.', '3']).rest = ['.', '3'] := (extendSum_of_end rfl).2
  rw [Tree.read, read]
  simp only [rest]
  rfl

theorem parse_locates_second_point :
    standard.Documented ∧
      (readers standard_documented).parse "1.2.3" = some (.error (.unconsumed ".3")) ∧
      ∃ front behind tree, "1.2.3" = front ++ behind ∧
        ".3" = String.ofList (Text.trim behind.toList) ∧
        (readers standard_documented).parse front = some (.ok tree) := by
  let g := readers standard_documented
  have told : g.parse "1.2.3" = some (.error (.unconsumed ".3")) := by
    obtain ⟨_, read, -⟩ | ⟨_, read, -⟩ | ⟨left, read, parsed⟩ :=
      g.parse_cases standard_documented "1.2.3"
    all_goals
      rw [read_second_point] at read
      cases read
    exact parsed
  obtain ⟨result, parsed, -, -, unconsumed⟩ := g.parse_locates standard_documented "1.2.3"
  rw [told] at parsed
  cases parsed
  exact ⟨standard_documented, told, (unconsumed _ rfl).2⟩

end

end Stepwise.Formula
