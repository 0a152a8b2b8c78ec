/-!
# Tables of numbers

- `Table`: rows of equal length
- `Table.entry`, `Table.lines`
- `after`, `others`: the indices after one, and all but one, in ascending order
-/

namespace Stepwise.Linear

abbrev Table (α : Type) (rows columns : Nat) := Vector (Vector α columns) rows

namespace Table

variable {α : Type} {rows columns : Nat}

def entry (t : Table α rows columns) (i : Fin rows) (j : Fin columns) : α := (t.get i).get j

theorem entry_eq_getElem (t : Table α rows columns) (i : Fin rows) (j : Fin columns) :
    t.entry i j = t[i.val][j.val] := rfl

def lines [ToString α] (t : Table α rows columns) : List String :=
  t.toList.map fun row => "\t".intercalate (row.toList.map toString)

end Table

variable {n : Nat}

def after (i : Fin n) : List (Fin n) := (List.finRange n).filter (i < ·)

def others (i : Fin n) : List (Fin n) := (List.finRange n).filter (· ≠ i)

theorem mem_after {i j : Fin n} : j ∈ after i ↔ i < j := by simp [after]

theorem mem_others {i j : Fin n} : j ∈ others i ↔ j ≠ i := by simp [others]

end Stepwise.Linear
