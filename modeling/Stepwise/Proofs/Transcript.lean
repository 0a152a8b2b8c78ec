import Stepwise.Proofs.Text.OneLine
import Stepwise.Trail
import Stepwise.Transcript

/-!
# Reading a transcript back

- `Transcript.LineByLine`: each step and each answer is one line
- `Transcript.shown`: the lines that the text of a transcript is meant to have
- `Transcript.fields_render_iff`: it has these lines exactly if the transcript is line by line
- `Transcript.read`: the transcript that a text shows
- `Trail.clean_bind_iff`: the lines that a computation writes on its way
-/

namespace Stepwise

namespace Transcript

/-- No step and no answer has a line break. -/
def LineByLine (t : Transcript) : Prop := Clean (t.steps ++ t.answers)

/-- The lines of a text view: a header, one line for each step and, under a heading of their own,
one for each answer. -/
def shown (t : Transcript) : List String :=
  if t.answers = [] then "Solution failed:" :: t.steps
  else "Solution Steps:" :: t.steps ++ "" :: "Final Answers:" :: t.answers

theorem render_eq (t : Transcript) : t.render = ended t.shown := by
  rw [render, shown]
  cases t.answers <;> rfl

theorem ended_eq_intercalate (lines : List String) :
    ended lines = (String.singleton '\n').intercalate (lines ++ [""]) := by
  induction lines with
  | nil => rfl
  | cons line lines ih =>
    rw [ended_cons, ih, List.cons_append,
      String.intercalate_cons_of_ne_nil (List.append_ne_nil_of_right_ne_nil _ (by decide))]
    rfl

theorem clean_shown_iff {t : Transcript} : Clean t.shown ↔ t.LineByLine := by
  have failure : OneLine "Solution failed:" := oneLine_literal rfl
  have success : OneLine "Solution Steps:" := oneLine_literal rfl
  have blank : OneLine "" := oneLine_literal rfl
  have answers : OneLine "Final Answers:" := oneLine_literal rfl
  rw [shown, LineByLine]
  split
  next none => simp [none, failure]
  next => simp [success, blank, answers]

/-- The text of a transcript has the lines that it is meant to have, and no others, exactly if no
step and no answer has a line break. -/
theorem fields_render_iff {t : Transcript} :
    fields '\n' t.render = t.shown ++ [""] ↔ t.LineByLine := by
  rw [← clean_shown_iff, render_eq, ended_eq_intercalate]
  constructor
  · intro split line mem
    refine notMem_of_mem_fields (split ▸ List.mem_append_left _ mem)
  · intro all
    refine fields_intercalate (by simp) fun line mem => ?_
    obtain mem | rfl := List.mem_append.1 mem |>.imp_right List.mem_singleton.1
    · exact all line mem
    · decide

/-- The transcript that a text shows. The answers are what stands behind the last heading. -/
def read (text : String) : Option Transcript :=
  match (fields '\n' text).dropLast with
  | "Solution failed:" :: steps => some { steps }
  | "Solution Steps:" :: lines =>
    let answers := lines.rtakeWhile (· ≠ "Final Answers:")
    some { steps := lines.rdrop (answers.length + 2), answers }
  | _ => none

/-- A transcript whose text tells it. -/
structure Readable (t : Transcript) : Prop where
  lineByLine : t.LineByLine
  noHeading : "Final Answers:" ∉ t.answers

theorem Readable.read_render {t : Transcript} (readable : t.Readable) : read t.render = some t := by
  obtain ⟨lineByLine, noHeading⟩ := readable
  obtain ⟨steps, answers⟩ := t
  rw [read, fields_render_iff.2 lineByLine, List.dropLast_concat, shown]
  cases answers with
  | nil => simp
  | cons answer answers =>
    have last : (steps ++ "" :: "Final Answers:" :: answer :: answers).rtakeWhile
        (· ≠ "Final Answers:") = answer :: answers := by
      have others : ∀ line ∈ (answer :: answers).reverse,
          decide (line ≠ "Final Answers:") = true := by
        intro line mem
        refine decide_eq_true ?_
        rintro rfl
        exact noHeading (List.mem_reverse.1 mem)
      rw [List.rtakeWhile, List.reverse_append, List.reverse_cons, List.reverse_cons,
        List.append_assoc, List.append_assoc, List.takeWhile_append_of_pos others]
      simp
    have first : (steps ++ "" :: "Final Answers:" :: answer :: answers).rdrop
        (answers.length + 1 + 2) = steps := List.rdrop_append_length
    simp only [List.cons_append, reduceCtorEq, if_false, last, List.length_cons, first]

/-! ## Answers -/

/-- Answers that a reader can tell from the heading above them, and from each other. -/
def Legible (lines : List String) : Prop := Clean lines ∧ "Final Answers:" ∉ lines

@[simp] theorem legible_nil : Legible [] := ⟨clean_nil, List.not_mem_nil⟩

@[simp] theorem legible_cons {line : String} {lines : List String} :
    Legible (line :: lines) ↔ (OneLine line ∧ line ≠ "Final Answers:") ∧ Legible lines := by
  simp only [Legible, clean_cons, List.mem_cons, not_or, ne_comm (a := line)]
  tauto

@[simp] theorem legible_append {first second : List String} :
    Legible (first ++ second) ↔ Legible first ∧ Legible second := by
  simp only [Legible, clean_append, List.mem_append, not_or]
  tauto

theorem legible_mapIdx {α : Type} {line : ℕ → α → String}
    (legible : ∀ i a, OneLine (line i a) ∧ line i a ≠ "Final Answers:") {as : List α} :
    Legible (as.mapIdx line) := by
  constructor
  · intro _ mem
    obtain ⟨i, _, rfl⟩ := List.mem_mapIdx.1 mem
    exact (legible _ _).1
  · intro mem
    obtain ⟨i, _, same⟩ := List.mem_mapIdx.1 mem
    exact (legible _ _).2 same

/-- Texts that are written out are told apart by their first characters. -/
theorem literal_append_ne {cs ds : List Char} (differs : cs.isPrefixOf ds = false)
    (rest : String) : String.ofList cs ++ rest ≠ String.ofList ds := by
  intro same
  have characters := congrArg String.toList same
  rw [String.toList_append, String.toList_ofList, String.toList_ofList] at characters
  rw [← characters, List.isPrefixOf_iff_prefix.2 (List.prefix_append _ _)] at differs
  cases differs

end Transcript

namespace Trail

variable {ε α γ : Type}

theorem clean_bind_iff {t : Trail String ε α} {f : α → Trail String ε γ} :
    Clean (t >>= f).entries ↔
      Clean t.entries ∧ ∀ a, t.ending = .ok a → Clean (f a).entries :=
  forall_mem_entries_bind_iff

theorem clean_expand {β : Type} {t : Trail β ε α} {lines : β → List String}
    (all : ∀ b, Clean (lines b)) : Clean (t.expand lines).entries := by
  intro line mem
  obtain ⟨b, _, inside⟩ := List.mem_flatMap.1 mem
  exact all b line inside

end Trail

end Stepwise
