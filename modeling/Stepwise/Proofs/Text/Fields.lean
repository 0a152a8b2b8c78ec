import Mathlib.Data.List.Basic

/-!
# Fields of a text

`fields c s` is what stands between the separators `c` of a text. What was joined with a separator
that occurs in no part is taken apart again without loss.
-/

namespace Stepwise

/-- The parts of a text between the separators. -/
def fields (separator : Char) (text : String) : List String :=
  (text.toList.splitOn separator).map String.ofList

variable {separator : Char}

/-- What is written out is judged by its characters. -/
theorem notMem_literal {cs : List Char} (free : cs.contains separator = false) :
    separator ∉ (String.ofList cs).toList := by
  simpa using free

theorem notMem_intercalate {c : Char} {glue : String} {parts : List String}
    (free : c ∉ glue.toList) (all : ∀ part ∈ parts, c ∉ part.toList) :
    c ∉ (glue.intercalate parts).toList := by
  induction parts with
  | nil =>
    rw [String.intercalate_nil]
    exact notMem_literal rfl
  | cons part parts ih =>
    obtain ⟨first, others⟩ := List.forall_mem_cons.1 all
    cases parts with
    | nil => rwa [String.intercalate_singleton]
    | cons next parts =>
      rw [String.intercalate_cons_cons, String.toList_append, String.toList_append]
      simpa [first, free] using ih others

theorem notMem_of_mem_splitOn {cs part : List Char} (mem : part ∈ cs.splitOn separator) :
    separator ∉ part := by
  induction cs generalizing part with
  | nil =>
    rw [List.splitOn_nil, List.mem_singleton] at mem
    rw [mem]
    exact List.not_mem_nil
  | cons c cs ih =>
    rw [List.splitOn_cons_eq_if_modifyHead] at mem
    split at mem
    next =>
      obtain rfl | later := List.mem_cons.1 mem
      · exact List.not_mem_nil
      · exact ih later
    next other =>
      cases parts : cs.splitOn separator with
      | nil => exact absurd parts (List.splitOn_ne_nil _ _)
      | cons first others =>
        rw [parts] at mem ih
        obtain rfl | later := List.mem_cons.1 mem
        · refine mt List.mem_cons.1 (not_or.2 ⟨?_, ih List.mem_cons_self⟩)
          rintro rfl
          exact other BEq.rfl
        · exact ih (List.mem_cons_of_mem _ later)

theorem notMem_of_mem_fields {text part : String} (mem : part ∈ fields separator text) :
    separator ∉ part.toList := by
  obtain ⟨cs, split, rfl⟩ := List.mem_map.1 mem
  rw [String.toList_ofList]
  exact notMem_of_mem_splitOn split

theorem fields_intercalate {parts : List String} (nonempty : parts ≠ [])
    (free : ∀ part ∈ parts, separator ∉ part.toList) :
    fields separator ((String.singleton separator).intercalate parts) = parts := by
  rw [fields, String.toList_intercalate, String.toList_singleton,
    List.splitOn_intercalate separator (by simpa using free) (by simpa using nonempty)]
  simp

theorem fields_cons {part rest : String} (free : separator ∉ part.toList) :
    fields separator (part ++ (String.singleton separator ++ rest)) =
      part :: fields separator rest := by
  rw [fields, String.toList_append, String.toList_append, String.toList_singleton,
    List.singleton_append, List.splitOn_append_cons_self_of_not_mem free, List.map_cons,
    String.ofList_toList]
  rfl

theorem fields_of_notMem {part : String} (free : separator ∉ part.toList) :
    fields separator part = [part] := by
  rw [fields, List.splitOn_eq_singleton free, List.map_singleton, String.ofList_toList]

theorem getLast?_fields {front last : String} (free : separator ∉ last.toList) :
    (fields separator (front ++ (String.singleton separator ++ last))).getLast? = some last := by
  rw [fields, String.toList_append, String.toList_append, String.toList_singleton,
    List.singleton_append, List.splitOn_append_cons_self, List.map_append,
    List.splitOn_eq_singleton free]
  simp

end Stepwise
