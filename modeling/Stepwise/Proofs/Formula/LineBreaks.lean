import Stepwise.Formula.Basic
import Stepwise.Formula.Substitution
import Stepwise.Proofs.Except
import Stepwise.Proofs.Formula.Soundness
import Stepwise.Proofs.Text.OneLine

/-!
# Line breaks of a formula

A line break in a formula is a blank, and nothing else has one: words, numbers and names are
without.

- `oneLine_substitute`: the substitution of a number keeps the line breaks of a formula
- `oneLine_message`: the errors of a formula without line breaks are told without
-/

namespace Stepwise.Formula

/-! ## Substitution -/

theorem newline_notMem_of_word {text word : List Char} (mem : .word word ∈ lexemes text) :
    '\n' ∉ word := by
  fun_induction lexemes text with
  | case1 => cases mem
  | case2 c rest start ih =>
    obtain ⟨⟨⟩⟩ | later := List.mem_cons.1 mem
    · refine mt List.mem_cons.1 (not_or.2 ⟨?_, fun inside => ?_⟩)
      · rintro rfl
        exact absurd start (by decide)
      · exact absurd (List.mem_takeWhile_imp inside) (by decide)
    · exact ih later
  | case3 c rest _ _ exponent ih =>
    obtain ⟨⟨⟩⟩ | later := List.mem_cons.1 mem
    exact ih later
  | case4 c rest _ _ ih =>
    obtain ⟨⟨⟩⟩ | later := List.mem_cons.1 mem
    exact ih later

theorem newline_notMem_insertion {value : List Char} (free : '\n' ∉ value)
    (previous : Option Char) : '\n' ∉ insertion value previous := by
  rw [insertion]
  split
  · simpa using free
  · exact free

theorem newline_mem_replacement {variableName value : List Char} (free : '\n' ∉ value)
    {piece : Lexeme} (word : ∀ text, piece = .word text → '\n' ∉ text) (previous : Option Char) :
    '\n' ∈ replacement variableName value previous piece ↔ '\n' ∈ piece.text := by
  cases piece with
  | word text =>
    rw [replacement, Lexeme.text]
    split
    · exact iff_of_false (newline_notMem_insertion free previous) (word text rfl)
    · rfl
  | numeral | other => rfl

theorem newline_mem_substitutePieces {variableName value : List Char} (free : '\n' ∉ value)
    {pieces : List Lexeme} (words : ∀ text, .word text ∈ pieces → '\n' ∉ text)
    (previous : Option Char) :
    '\n' ∈ substitutePieces variableName value previous pieces ↔
      '\n' ∈ pieces.flatMap Lexeme.text := by
  induction pieces generalizing previous with
  | nil => rfl
  | cons piece pieces ih =>
    have word (text : List Char) (same : piece = .word text) :=
      words text (same ▸ List.mem_cons_self)
    rw [substitutePieces, List.flatMap_cons, List.mem_append, List.mem_append,
      newline_mem_replacement free word,
      ih fun text mem => words text (List.mem_cons_of_mem _ mem)]

/-- A text with a value in place of its variable has line breaks if it had them before. -/
theorem oneLine_substitute {formula variableName value : String} (free : OneLine value) :
    OneLine (substitute formula variableName value) ↔ OneLine formula := by
  rw [OneLine, OneLine, substitute, String.toList_ofList, newline_mem_substitutePieces free,
    flatMap_text_lexemes]
  exact fun _ => newline_notMem_of_word

/-! ## Errors -/

theorem IsName.newline_notMem {word : List Char} (isName : IsName word) : '\n' ∉ word := by
  cases isName with
  | pi => decide
  | @word c rest start parts =>
    refine mt List.mem_cons.1 (not_or.2 ⟨?_, fun inside => ?_⟩)
    · rintro rfl
      exact absurd start (by decide)
    · exact absurd (parts _ inside) (by decide)

theorem trim_subset (text : List Char) : Text.trim text ⊆ text := fun c mem => by
  rw [Text.trim, Text.trimEnd, List.mem_reverse] at mem
  exact (List.dropWhile_subset _) (List.mem_reverse.1 ((List.dropWhile_subset _) mem))

theorem oneLine_of_read_eq_error {source : String} {cause : Error} (free : OneLine source)
    (failed : Tree.read source = .error cause) : OneLine cause.message := by
  rw [Tree.read] at failed
  split at failed
  next rest _ =>
    obtain rfl := Except.error.inj failed
    have quoted := oneLine_quoted (String.ofList rest).toList
    exact oneLine_append.2 ⟨oneLine_append.2 ⟨oneLine_literal rfl, quoted⟩, oneLine_literal rfl⟩
  next formula readFormula =>
    split at failed
    next => cases failed
    next =>
      cases failed
      have behind := (explained_readSum readFormula).isSuffix
      have inside : OneLine (String.ofList (Text.trim formula.rest)) := fun mem => by
        rw [String.toList_ofList] at mem
        exact free (behind.subset (trim_subset _ mem))
      exact oneLine_append.2 ⟨oneLine_literal rfl, inside⟩

theorem Tree.Named.oneLine_of_resolve_eq_error {tree : Tree} {variableName : String}
    {cause : Error} (named : tree.Named) (failed : tree.resolve variableName = .error cause) :
    OneLine cause.message := by
  induction tree with
  | number => cases failed
  | name word =>
    rw [resolve] at failed
    split at failed
    next => cases failed
    next =>
      split at failed
      next => cases failed
      next =>
        cases failed
        exact oneLine_append.2 ⟨oneLine_literal rfl, named.newline_notMem⟩
  | negate operand ih =>
    obtain inside | ⟨term, -, ⟨⟩⟩ := bind_eq_error_iff.1 failed
    exact ih named inside
  | binary operator left right ih ih' =>
    obtain first | ⟨term, -, failed'⟩ := bind_eq_error_iff.1 failed
    · exact ih named.1 first
    · obtain second | ⟨term', -, ⟨⟩⟩ := bind_eq_error_iff.1 failed'
      exact ih' named.2 second
  | call function argument ih =>
    rw [resolve] at failed
    split at failed
    next =>
      cases failed
      exact oneLine_append.2 ⟨oneLine_literal rfl, named.1.newline_notMem⟩
    next =>
      obtain inside | ⟨term, -, ⟨⟩⟩ := bind_eq_error_iff.1 failed
      exact ih named.2 inside

theorem eq_divisionByZero_of_eval {term : Term} {x : Float} {cause : Error}
    (failed : term.eval x = .error cause) : cause = .divisionByZero := by
  induction term with
  | number => cases failed
  | «variable» => cases failed
  | negate operand ih =>
    obtain inside | ⟨y, -, ⟨⟩⟩ := bind_eq_error_iff.1 failed
    exact ih inside
  | binary operator left right ih ih' =>
    obtain first | ⟨y, -, failed'⟩ := bind_eq_error_iff.1 failed
    · exact ih first
    · obtain second | ⟨z, -, applied⟩ := bind_eq_error_iff.1 failed'
      · exact ih' second
      · cases operator with
        | divide =>
          rw [Operator.apply] at applied
          split at applied <;> cases applied
          rfl
        | add | subtract | multiply | power => cases applied
  | call function argument ih =>
    obtain inside | ⟨y, -, ⟨⟩⟩ := bind_eq_error_iff.1 failed
    exact ih inside

/-- What is wrong with a formula without line breaks, or with a point, is told without. -/
theorem oneLine_message {source variableName : String} {x : Float} {cause : Error}
    (free : OneLine source) (failed : Formula.evaluator source variableName x = .error cause) :
    OneLine (toString cause) := by
  obtain unread | ⟨formula, -, undefined⟩ := bind_eq_error_iff.1 failed
  · obtain unread | ⟨tree, read, unread⟩ := bind_eq_error_iff.1 unread
    · exact oneLine_of_read_eq_error free unread
    · obtain unresolved | ⟨term, -, ⟨⟩⟩ := bind_eq_error_iff.1 unread
      exact (Tree.named_of_read read).oneLine_of_resolve_eq_error unresolved
  · rw [eq_divisionByZero_of_eval undefined]
    exact oneLine_literal rfl

end Stepwise.Formula
