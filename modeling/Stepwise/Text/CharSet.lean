/-!
# Sets of characters

A set of characters, written as a list of ranges of code points, both ends belonging to the range.
-/

namespace Stepwise.Text

/-- A set of characters, by ranges of their code points. -/
structure CharSet where
  ranges : List (Nat × Nat)

namespace CharSet

def contains (s : CharSet) (c : Char) : Bool :=
  s.ranges.any fun (first, last) => first ≤ c.toNat && c.toNat ≤ last

theorem contains_iff {s : CharSet} {c : Char} :
    s.contains c = true ↔ ∃ r ∈ s.ranges, r.1 ≤ c.toNat ∧ c.toNat ≤ r.2 := by
  simp [contains, Prod.exists]

end CharSet

end Stepwise.Text
