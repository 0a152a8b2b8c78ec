import Stepwise.Formula.Token
import Stepwise.Text.Quoted

/-!
# Parser combinators

A library of parser combinators, as far as formulas need it. Its functions are taken as they come;
`Combinators.Documented` says what they are known to do.

- `Parser`: from a text to a value and the rest of the text, or to a failure, or to no end
- `Combinators`: the functions of such a library, by their names there
- `Combinators.Documented`: what each of them does
- `standard`: functions that do this
-/

namespace Stepwise.Formula

/-! ## Parsers -/

/-- The parsers that fail by themselves, not just because a part of them fails. -/
inductive Kind where
  | char
  | oneOf
  | digit
  | tag
  | takeWhile1
  | mapRes
  | many0
deriving DecidableEq, Repr

/-- How a failure names the parser. -/
def Kind.name : Kind → String
  | .char => "Char"
  | .oneOf => "OneOf"
  | .digit => "Digit"
  | .tag => "Tag"
  | .takeWhile1 => "TakeWhile1"
  | .mapRes => "MapRes"
  | .many0 => "Many0"

/-- The text in front of which a parser failed, and its kind. -/
structure Failure where
  rest : List Char
  kind : Kind

/-- The wording of a failure. -/
def Failure.message (f : Failure) : String :=
  "Parsing Error: Error \x7b input: " ++ String.ofList (Text.quoted f.rest) ++ ", code: " ++
    f.kind.name ++ " \x7d"

/-- What becomes of a text: a value with the rest of the text, or a failure, or no end. -/
inductive Parsed (α : Type) where
  | success (value : α) (rest : List Char)
  | failure (failure : Failure)
  | endless

/-- What reads the front of a text. -/
abbrev Parser (α : Type) := List Char → Parsed α

namespace Parsed

variable {α β : Type}

/-- Goes on with the value and the rest of the text. -/
def andThen (parsed : Parsed α) (next : α → Parser β) : Parsed β :=
  match parsed with
  | success value rest => next value rest
  | failure f => .failure f
  | endless => .endless

/-- Tries something else after a failure, which is forgotten. -/
def orElse (parsed other : Parsed α) : Parsed α :=
  match parsed with
  | failure _ => other
  | _ => parsed

@[simp] theorem andThen_success (value : α) (rest : List Char) (next : α → Parser β) :
    (success value rest).andThen next = next value rest := rfl

@[simp] theorem andThen_failure (f : Failure) (next : α → Parser β) :
    (failure f).andThen next = .failure f := rfl

@[simp] theorem orElse_success (value : α) (rest : List Char) (other : Parsed α) :
    (success value rest).orElse other = success value rest := rfl

@[simp] theorem orElse_failure (f : Failure) (other : Parsed α) :
    (failure f).orElse other = other := rfl

end Parsed

/-! ## Combinators -/

/-- The functions of a library of parser combinators. -/
structure Combinators where
  char : Char → Parser Char
  oneOf : List Char → Parser Char
  digit0 : Parser (List Char)
  digit1 : Parser (List Char)
  multispace0 : Parser (List Char)
  tag : List Char → Parser (List Char)
  takeWhile : (Char → Bool) → Parser (List Char)
  takeWhile1 : (Char → Bool) → Parser (List Char)
  map {α β : Type} : Parser α → (α → β) → Parser β
  mapRes {α β : Type} : Parser α → (α → Option β) → Parser β
  opt {α : Type} : Parser α → Parser (Option α)
  recognize {α : Type} : Parser α → Parser (List Char)
  pair {α β : Type} : Parser α → Parser β → Parser (α × β)
  tuple {α β γ : Type} : Parser α → Parser β → Parser γ → Parser (α × β × γ)
  preceded {α β : Type} : Parser α → Parser β → Parser β
  delimited {α β γ : Type} : Parser α → Parser β → Parser γ → Parser β
  alt {α : Type} : List (Parser α) → Parser α
  foldMany0 {α β : Type} : Parser α → β → (β → α → β) → Parser β

/-- Reads one character that has a property. -/
def readChar (accepts : Char → Bool) (kind : Kind) : Parser Char
  | c :: rest => if accepts c then .success c rest else .failure ⟨c :: rest, kind⟩
  | [] => .failure ⟨[], kind⟩

/-- Reads the characters that have a property, as far as they go. -/
def readWhile (accepts : Char → Bool) : Parser (List Char) := fun text =>
  .success (text.takeWhile accepts) (text.dropWhile accepts)

/-- Reads characters as `readWhile` does, at least one of them. -/
def readWhile1 (accepts : Char → Bool) (kind : Kind) : Parser (List Char) := fun text =>
  if text.takeWhile accepts = [] then .failure ⟨text, kind⟩ else readWhile accepts text

/-- What the functions of the library are known to do. Where all alternatives fail, the failure is
that of the last. A repetition ends before the first item that fails, and an item that reads nothing
is a failure of its own. -/
structure Combinators.Documented (c : Combinators) : Prop where
  char (s : Char) : c.char s = readChar (· == s) .char
  oneOf (list : List Char) : c.oneOf list = readChar list.contains .oneOf
  digit0 : c.digit0 = readWhile Char.isDigit
  digit1 : c.digit1 = readWhile1 Char.isDigit .digit
  multispace0 : c.multispace0 = readWhile isBlank
  tag (t text : List Char) : c.tag t text =
    if t.isPrefixOf text then .success t (text.drop t.length) else .failure ⟨text, .tag⟩
  takeWhile (accepts : Char → Bool) : c.takeWhile accepts = readWhile accepts
  takeWhile1 (accepts : Char → Bool) : c.takeWhile1 accepts = readWhile1 accepts .takeWhile1
  map {α β : Type} (p : Parser α) (f : α → β) (text : List Char) :
    c.map p f text = (p text).andThen fun a rest => .success (f a) rest
  mapRes {α β : Type} (p : Parser α) (f : α → Option β) (text : List Char) :
    c.mapRes p f text = (p text).andThen fun a rest =>
      match f a with
      | some b => .success b rest
      | none => .failure ⟨text, .mapRes⟩
  opt {α : Type} (p : Parser α) (text : List Char) :
    c.opt p text = ((p text).andThen fun a rest => .success (some a) rest).orElse
      (.success none text)
  recognize {α : Type} (p : Parser α) (text : List Char) :
    c.recognize p text = (p text).andThen fun _ rest =>
      .success (text.take (text.length - rest.length)) rest
  pair {α β : Type} (p : Parser α) (q : Parser β) (text : List Char) :
    c.pair p q text = (p text).andThen fun a rest => (q rest).andThen fun b rest =>
      .success (a, b) rest
  tuple {α β γ : Type} (p : Parser α) (q : Parser β) (r : Parser γ) (text : List Char) :
    c.tuple p q r text = (p text).andThen fun a rest => (q rest).andThen fun b rest =>
      (r rest).andThen fun d rest => .success (a, b, d) rest
  preceded {α β : Type} (p : Parser α) (q : Parser β) (text : List Char) :
    c.preceded p q text = (p text).andThen fun _ rest => q rest
  delimited {α β γ : Type} (p : Parser α) (q : Parser β) (r : Parser γ) (text : List Char) :
    c.delimited p q r text = (p text).andThen fun _ rest => (q rest).andThen fun b rest =>
      (r rest).andThen fun _ rest => .success b rest
  alt_singleton {α : Type} (p : Parser α) : c.alt [p] = p
  alt_cons {α : Type} (p q : Parser α) (ps : List (Parser α)) (text : List Char) :
    c.alt (p :: q :: ps) text = (p text).orElse (c.alt (q :: ps) text)
  foldMany0_failure {α β : Type} {item : Parser α} {text : List Char} {f : Failure} (start : β)
    (step : β → α → β) (failed : item text = .failure f) :
    c.foldMany0 item start step text = .success start text
  foldMany0_success {α β : Type} {item : Parser α} {text rest : List Char} {a : α} (start : β)
    (step : β → α → β) (read : item text = .success a rest) (shorter : rest.length < text.length) :
    c.foldMany0 item start step text = c.foldMany0 item (step start a) step rest
  foldMany0_stuck {α β : Type} {item : Parser α} {text rest : List Char} {a : α} (start : β)
    (step : β → α → β) (read : item text = .success a rest) (same : rest.length = text.length) :
    c.foldMany0 item start step text = .failure ⟨text, .many0⟩
  foldMany0_endless {α β : Type} {item : Parser α} {text : List Char} (start : β)
    (step : β → α → β) (endless : item text = .endless) :
    c.foldMany0 item start step text = .endless

/-! ## Functions that do this -/

/-- Tries parsers one after another. -/
def tryAll {α : Type} : List (Parser α) → Parser α
  | [], _ => .endless
  | [p], text => p text
  | p :: q :: ps, text => (p text).orElse (tryAll (q :: ps) text)

/-- Repeats a parser as long as it goes on. -/
def repeated {α β : Type} (item : Parser α) (start : β) (step : β → α → β) (text : List Char) :
    Parsed β :=
  match item text with
  | .success a rest =>
    if rest.length < text.length then repeated item (step start a) step rest
    else .failure ⟨text, .many0⟩
  | .failure _ => .success start text
  | .endless => .endless
termination_by text.length

def standard : Combinators where
  char s := readChar (· == s) .char
  oneOf list := readChar list.contains .oneOf
  digit0 := readWhile Char.isDigit
  digit1 := readWhile1 Char.isDigit .digit
  multispace0 := readWhile isBlank
  tag t text := if t.isPrefixOf text then .success t (text.drop t.length) else .failure ⟨text, .tag⟩
  takeWhile := readWhile
  takeWhile1 accepts := readWhile1 accepts .takeWhile1
  map p f text := (p text).andThen fun a rest => .success (f a) rest
  mapRes p f text := (p text).andThen fun a rest =>
    match f a with
    | some b => .success b rest
    | none => .failure ⟨text, .mapRes⟩
  opt p text := ((p text).andThen fun a rest => .success (some a) rest).orElse (.success none text)
  recognize p text := (p text).andThen fun _ rest =>
    .success (text.take (text.length - rest.length)) rest
  pair p q text := (p text).andThen fun a rest => (q rest).andThen fun b rest =>
    .success (a, b) rest
  tuple p q r text := (p text).andThen fun a rest => (q rest).andThen fun b rest =>
    (r rest).andThen fun d rest => .success (a, b, d) rest
  preceded p q text := (p text).andThen fun _ rest => q rest
  delimited p q r text := (p text).andThen fun _ rest => (q rest).andThen fun b rest =>
    (r rest).andThen fun _ rest => .success b rest
  alt := tryAll
  foldMany0 := repeated

theorem standard_documented : standard.Documented where
  char _ := rfl
  oneOf _ := rfl
  digit0 := rfl
  digit1 := rfl
  multispace0 := rfl
  tag _ _ := rfl
  takeWhile _ := rfl
  takeWhile1 _ := rfl
  map _ _ _ := rfl
  mapRes _ _ _ := rfl
  opt _ _ := rfl
  recognize _ _ := rfl
  pair _ _ _ := rfl
  tuple _ _ _ _ := rfl
  preceded _ _ _ := rfl
  delimited _ _ _ _ := rfl
  alt_singleton _ := rfl
  alt_cons _ _ _ _ := rfl
  foldMany0_failure start step failed := by
    change repeated _ start step _ = _
    rw [repeated, failed]
  foldMany0_success start step read shorter := by
    change repeated _ start step _ = repeated _ _ _ _
    rw [repeated, read]
    exact if_pos shorter
  foldMany0_stuck start step read same := by
    change repeated _ start step _ = _
    rw [repeated, read]
    exact if_neg (by omega)
  foldMany0_endless start step endless := by
    change repeated _ start step _ = _
    rw [repeated, endless]

end Stepwise.Formula
