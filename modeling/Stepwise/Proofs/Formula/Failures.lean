import Stepwise.Proofs.Formula.Completeness

/-!
# Where reading fails

A reader that fails tells where: at the end of its text, behind the blanks. A text that is left over
has a formula before it, which is read in the same way without what is behind it.

- `Stops`: where a reader may fail
- `stops_readSum` and its companions, one for each reader
- `Tree.stops_of_malformed`, `Tree.read_of_leftover`: a whole text
-/

namespace Stepwise.Formula

variable {text wider stop : List Char}

/-- The end of a text, from a character on that is not blank. -/
structure Stops (text stop : List Char) : Prop where
  isSuffix : stop <:+ text
  visible : Avoids isBlank stop

theorem Stops.widen (stops : Stops text stop) (behind : text <:+ wider) : Stops wider stop :=
  ⟨stops.isSuffix.trans behind, stops.visible⟩

theorem stops_skipBlanks (text : List Char) : Stops text (skipBlanks text) :=
  ⟨isSuffix_skipBlanks text, avoids_dropWhile⟩

/-! ## The readers -/

mutual

theorem stops_readSum {text stop : List Char} (failed : readSum text = .error stop) :
    Stops text stop := by
  rw [readSum] at failed
  split at failed
  next readFirst =>
    cases failed
    exact stops_readProduct readFirst
  next => cases failed
termination_by (text.length, 6)

theorem stops_readProduct {text stop : List Char} (failed : readProduct text = .error stop) :
    Stops text stop := by
  rw [readProduct] at failed
  split at failed
  next readFirst =>
    cases failed
    exact stops_readSigned readFirst
  next first readFirst =>
    have shorter := first.shorter
    split at failed
    next extended =>
      cases failed
      exact (stops_extendProduct extended).widen (explained_readSigned readFirst).isSuffix
    next => cases failed
termination_by (text.length, 5)

theorem stops_extendProduct {text stop : List Char} {product : Tree}
    (failed : extendProduct product text = .error stop) : Stops text stop := by
  rw [extendProduct] at failed
  split at failed
  next operator found =>
    have shorter := operator.shorter
    have behind := isSuffix_of_symbol? found
    split at failed
    next readFactor =>
      cases failed
      exact (stops_readSigned readFactor).widen behind
    next factor readFactor =>
      have shorter' := factor.shorter
      split at failed
      next extended =>
        cases failed
        have behind' := (explained_readSigned readFactor).isSuffix.trans behind
        exact (stops_extendProduct extended).widen behind'
      next => cases failed
  next =>
    split at failed
    next =>
      split at failed
      next readFactor =>
        cases failed
        exact stops_readPower readFactor
      next factor readFactor =>
        have shorter := factor.shorter
        split at failed
        next extended =>
          cases failed
          exact (stops_extendProduct extended).widen (explained_readPower readFactor).isSuffix
        next => cases failed
    next => cases failed
termination_by (text.length, 5)

theorem stops_readSigned {text stop : List Char} (failed : readSigned text = .error stop) :
    Stops text stop := by
  rw [readSigned] at failed
  split at failed
  next =>
    split at failed
    next =>
      cases failed
      exact stops_skipBlanks text
    next => cases failed
  next => exact stops_readPower failed
termination_by (text.length, 4)

theorem stops_readPower {text stop : List Char} (failed : readPower text = .error stop) :
    Stops text stop := by
  rw [readPower] at failed
  split at failed
  next readBase =>
    cases failed
    exact stops_readAtom readBase
  next base readBase =>
    have shorter := base.shorter
    split at failed
    next => cases failed
    next mark found =>
      have shorter' := mark.shorter
      split at failed
      next readExponent =>
        cases failed
        have behind := (isSuffix_of_symbol? found).trans (explained_readAtom readBase).isSuffix
        exact (stops_readSigned readExponent).widen behind
      next => cases failed
termination_by (text.length, 3)

theorem stops_readAtom {text stop : List Char} (failed : readAtom text = .error stop) :
    Stops text stop := by
  have skipped := stops_skipBlanks text
  have notLonger := length_skipBlanks_le text
  rw [readAtom] at failed
  split at failed
  next => cases failed
  next =>
    split at failed
    next => split at failed <;> cases failed
    next =>
      split at failed
      next readInner =>
        cases failed
        exact (stops_readGroup skipped.visible readInner).widen skipped.isSuffix
      next => cases failed
termination_by (text.length, 2)
decreasing_by
  rcases Nat.lt_or_eq_of_le notLonger with shorter | same
  · exact Prod.Lex.left _ _ shorter
  · rw [same]
    exact Prod.Lex.right _ (by decide)

theorem stops_readGroup {text stop : List Char} (visible : Avoids isBlank text)
    (failed : readGroup text = .error stop) : Stops text stop := by
  unfold readGroup at failed
  split at failed
  next inside =>
    have behind := List.suffix_cons '(' inside
    split at failed
    next readInner =>
      cases failed
      exact (stops_readSum readInner).widen behind
    next inner readInner =>
      split at failed
      next =>
        cases failed
        have inner_behind := (explained_readSum readInner).isSuffix
        exact (stops_skipBlanks inner.rest).widen (inner_behind.trans behind)
      next => cases failed
  next =>
    cases failed
    exact ⟨List.suffix_rfl, visible⟩
termination_by (text.length, 1)

end

/-! ## Whole texts -/

/-- Where a text stops to be a formula. -/
theorem Tree.stops_of_malformed {source stop : String}
    (failed : Tree.read source = .error (.malformed stop)) :
    Stops source.toList stop.toList := by
  rw [Tree.read] at failed
  split at failed
  next rest readFormula =>
    cases failed
    rw [String.toList_ofList]
    exact stops_readSum readFormula
  next => split at failed <;> cases failed

/-- What is before a text that is left over is a formula without it. -/
theorem Tree.read_of_leftover {source left : String}
    (failed : Tree.read source = .error (.leftover left)) :
    left ≠ "" ∧ ∃ front behind tree, source = front ++ behind ∧
      left = String.ofList (Text.trim behind.toList) ∧ Tree.read front = .ok tree := by
  rw [Tree.read] at failed
  split at failed
  next => cases failed
  next formula readFormula =>
    split at failed
    next => cases failed
    next nonempty =>
      cases failed
      obtain ⟨tokens, derives, split, alone, -⟩ := explained_readSum readFormula
      refine ⟨fun empty => nonempty (String.ofList_eq_empty_iff.1 empty),
        String.ofList (textOf tokens), String.ofList formula.rest, formula.value, ?_, ?_, ?_⟩
      · rw [← String.ofList_append, ← split, String.ofList_toList]
      · rw [String.toList_ofList]
      · have whole : (String.ofList (textOf tokens)).toList = textOf tokens ++ [] := by simp
        exact Tree.read_of_derives whole (List.forall_mem_nil _) derives alone

end Stepwise.Formula
