import Stepwise.Proofs.Formula.Substitution
import Stepwise.Proofs.Formula.Tokens
import Stepwise.Proofs.Formula.WholeWords

/-!
# Two scanners of one text

The substitution cuts a text without knowing the grammar, and the reader of formulas takes literals
and names off its front. On every formula they find the same ones at the same positions.

- `scanned`: the words and numbers that the substitution finds
- `consumed`: the names and literals that the reader takes
- `Token.Becomes`: what the substitution writes for a token
-/

namespace Stepwise.Formula

variable {v value : List Char} {pieces : List Lexeme} {tokens : List Token}

/-! ## The substitution -/

/-- Pieces of a text, each with its position. -/
def located (start : Nat) : List Lexeme → List (Nat × Lexeme)
  | [] => []
  | piece :: pieces => (start, piece) :: located (start + piece.text.length) pieces

/-- Words and numbers. -/
def Lexeme.isSpan : Lexeme → Bool
  | .word _ | .numeral _ => true
  | .other _ => false

/-- The words and numbers in a text with their positions. -/
def scanned (text : List Char) : List (Nat × Lexeme) :=
  (located 0 (lexemes text)).filter (·.2.isSpan)

theorem located_append (start : Nat) (first second : List Lexeme) :
    located start (first ++ second) =
      located start first ++ located (start + (first.flatMap Lexeme.text).length) second := by
  induction first generalizing start with
  | nil => rfl
  | cons piece first ih =>
    rw [List.cons_append, located, located, ih, List.flatMap_cons, List.length_append,
      ← Nat.add_assoc, List.cons_append]

theorem filter_located_others (start : Nat) (cs : List Char) :
    (located start (cs.map .other)).filter (·.2.isSpan) = [] := by
  induction cs generalizing start with
  | nil => rfl
  | cons c cs ih => exact ih (start + 1)

/-! ## The reader -/

/-- The name in a part, called or not. The Greek letter is left out. -/
def Part.identifier? : Part → Option (List Char)
  | .name word | .function word => if word = ['π'] then none else some word
  | .literal _ _ | .symbol _ => none

/-- The literal or name in a part. -/
def Part.span? : Part → Option Lexeme
  | .literal mantissa exponent => some (.numeral (mantissa ++ exponent))
  | part => part.identifier?.map .word

/-- The literals and names among tokens with their positions, the first token being at `start`. -/
def consumed (start : Nat) : List Token → List (Nat × Lexeme)
  | [] => []
  | token :: tokens =>
    (token.part.span?.map (start + token.blanks.length, ·)).toList ++
      consumed (start + token.text.length) tokens

/-! ## Agreement -/

theorem Part.lexeme_eq_word_iff (part : Part) (word : List Char) :
    part.lexeme = .word word ↔ part.identifier? = some word := by
  cases part with
  | literal | symbol => simp [lexeme, identifier?]
  | name other | function other => by_cases pi : other = ['π'] <;> simp [lexeme, identifier?, pi]

theorem Part.filter_lexeme (start : Nat) (part : Part) :
    [(start, part.lexeme)].filter (·.2.isSpan) = (part.span?.map (start, ·)).toList := by
  cases part with
  | literal | symbol => rfl
  | name word | function word =>
    by_cases pi : word = ['π'] <;> simp [lexeme, span?, identifier?, pi, Lexeme.isSpan]

theorem flatMap_text_others (cs : List Char) :
    (cs.map Lexeme.other).flatMap Lexeme.text = cs := by
  induction cs with
  | nil => rfl
  | cons c cs ih => rw [List.map_cons, List.flatMap_cons, ih]; rfl

/-- Token by token the two find the same. -/
theorem filter_located_tokens (start : Nat) (tokens : List Token) (white : List Char) :
    (located start (tokens.flatMap Token.lexemes ++ white.map .other)).filter (·.2.isSpan) =
      consumed start tokens := by
  induction tokens generalizing start with
  | nil => exact filter_located_others start white
  | cons token tokens ih =>
    have length : (token.lexemes.flatMap Lexeme.text).length = token.text.length := by
      simp [Token.lexemes, flatMap_text_others, Part.text_lexeme, Token.text]
    have here : (located start token.lexemes).filter (·.2.isSpan) =
        (token.part.span?.map (start + token.blanks.length, ·)).toList := by
      rw [Token.lexemes, located_append, List.filter_append, filter_located_others,
        flatMap_text_others]
      exact token.part.filter_lexeme _
    rw [List.flatMap_cons, List.append_assoc, located_append, List.filter_append, here, length, ih,
      consumed]

/-- A value stands for each name that is the variable, called or not. Every other token is written as
it is. -/
def Token.Becomes (v value : List Char) (token : Token) (written : List Char) : Prop :=
  if token.part.identifier? = some v then
    written = token.blanks ++ value ∨ written = token.blanks ++ '(' :: value ++ [')']
  else written = token.text

theorem Token.becomes_replacement (v value : List Char) (previous : Option Char) (token : Token) :
    token.Becomes v value
      (token.blanks ++ replacement v value previous token.part.lexeme) := by
  have becomes := Formula.becomes_replacement v value previous token.part.lexeme
  simp only [Lexeme.Becomes, token.part.lexeme_eq_word_iff] at becomes
  rw [Token.Becomes]
  split
  next same =>
    rw [if_pos same] at becomes
    rcases becomes with bare | inside
    · exact .inl (by rw [bare])
    · exact .inr (by rw [inside, List.append_assoc])
  next other =>
    rw [if_neg other, Part.text_lexeme] at becomes
    rw [becomes, Token.text]

theorem exists_becomes_tokens (v value : List Char) (previous : Option Char) (tokens : List Token)
    (white : List Char) :
    ∃ written, List.Forall₂ (Token.Becomes v value) tokens written ∧
      substitutePieces v value previous (tokens.flatMap Token.lexemes ++ white.map .other) =
        written.flatten ++ white := by
  induction tokens generalizing previous with
  | nil =>
    refine ⟨[], .nil, ?_⟩
    rw [List.flatMap_nil, List.nil_append, substitutePieces_of_notMem (by simp),
      flatMap_text_others]
    rfl
  | cons token tokens ih =>
    have here := token.becomes_replacement v value (token.blanks.getLast?.or previous)
    obtain ⟨written, becomes, same⟩ := ih _
    refine ⟨_ :: written, .cons here becomes, ?_⟩
    rw [List.flatMap_cons, Token.lexemes, List.append_assoc, List.append_assoc,
      substitutePieces_others, List.singleton_append, substitutePieces, same, List.flatten_cons,
      List.append_assoc, List.append_assoc]

/-! ## Whole formulas -/

/-- The numbers and words that the substitution finds in the text of a formula are the literals and
names that the reader takes off it, at the same positions; the Greek letter is a word for neither. So
what is rewritten are the names that are read as that of the variable, those of calls among them. -/
theorem scanners_agree {source variableName : String} {formula : Formula}
    (parsed : Formula.parse source variableName = .ok formula) :
    ∃ tree tokens white, Tree.read source = .ok tree ∧ Tokenized source tree tokens white ∧
      (∀ tree' tokens' white', Tokenized source tree' tokens' white' →
        tokens' = tokens ∧ white' = white) ∧
      scanned source.toList = consumed 0 tokens ∧
      ∀ value : String, ∃ written,
        List.Forall₂ (Token.Becomes variableName.toList value.toList) tokens written ∧
          (substitute source variableName value).toList = written.flatten ++ white := by
  obtain ⟨tree, term, read, -, -⟩ := exists_of_parse parsed
  obtain ⟨tokens, white, tokenized⟩ := Tree.exists_tokenized read
  have pieces : lexemes source.toList = tokens.flatMap Token.lexemes ++ white.map .other := by
    rw [tokenized.text, lexemes_textOf tokenized.fits, lexemes_of_isWhite tokenized.isWhite]
  refine ⟨tree, tokens, white, read, tokenized, fun _ _ _ other => other.unique tokenized, ?_, ?_⟩
  · rw [scanned, pieces, filter_located_tokens]
  · intro value
    obtain ⟨written, becomes, same⟩ :=
      exists_becomes_tokens variableName.toList value.toList none tokens white
    exact ⟨written, becomes, by rw [substitute, String.toList_ofList, pieces, same]⟩

/-- In `2e+x` no digit is behind the sign, and so the letter is a name for both. -/
theorem scanners_agree_without_exponent : ∃ formula, Formula.parse "2e+x" "x" = .ok formula ∧
    scanned "2e+x".toList = [(0, .numeral ['2']), (1, .word ['e']), (3, .word ['x'])] := by
  have derives : Derives .sum
      [⟨[], .literal ['2'] []⟩, ⟨[], .name ['e']⟩, ⟨[], .symbol '+'⟩, ⟨[], .name ['x']⟩]
      (.binary .add (.binary .multiply (.number (literalValue ['2'])) (.name "e")) (.name "x")) :=
    .add [] rfl
      (.term (.juxtapose (.factor (.unsigned (.base
        (.literal [] (denotes_literalValue (.digit rfl) .none)))))
        (.base (.name [] ['e'])) rfl))
      (.factor (.unsigned (.base (.name [] ['x']))))
  have literal : (Part.literal ['2'] []).Fits ['e', '+', 'x'] :=
    ⟨.digit rfl, .none, avoids_cons.2 rfl, fun _ => rfl⟩
  have constant : (Part.name ['e']).Fits ['+', 'x'] :=
    ⟨.letter rfl, .inr (avoids_cons.2 rfl), avoids_cons.2 rfl, avoids_cons.2 rfl⟩
  have name : (Part.name ['x']).Fits [] :=
    ⟨.letter rfl, .inr avoids_nil, avoids_nil, avoids_nil⟩
  have tokenized : Tokenized "2e+x" _ _ [] :=
    ⟨rfl, isWhite_nil, derives, by simp, literal, by simp, constant, by simp, rfl, by simp, name,
      trivial⟩
  have parsed : Formula.parse "2e+x" "x" = .ok _ := parse_eq tokenized.read rfl
  obtain ⟨tree, tokens, white, -, -, only, same, -⟩ := scanners_agree parsed
  obtain ⟨rfl, rfl⟩ := only _ _ _ tokenized
  exact ⟨_, parsed, same⟩

end Stepwise.Formula
