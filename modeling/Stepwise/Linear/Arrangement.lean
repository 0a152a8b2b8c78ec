import Stepwise.Linear.System

/-!
# Diagonal dominance

A row dominates in a column when its entry there is greater in magnitude than all others together.
`dominantOrder` looks for an order of the rows in which each dominates on the diagonal.
-/

namespace Stepwise.Linear

/-- Gives each of the positions in turn a row that suits it. Rows are tried in the order in which
they are free, and given back when the rest cannot be placed. -/
def place {ι : Type} [BEq ι] (suits : ι → ι → Bool) :
    (positions free : List ι) → Option (Vector ι positions.length)
  | [], _ => some #v[]
  | position :: positions, free =>
    free.findSome? fun row =>
      if suits row position then (place suits positions (free.erase row)).map (prepend row)
      else none

variable {n : Nat}

def rowTotal (s : System Float n) (row : Fin n) : Float :=
  (s.coefficients.get row).toList.foldl (fun sum value => sum + value.abs) 0.0

/-- Whether an entry is greater in magnitude than the others of its row together. -/
def dominates (s : System Float n) (row column : Fin n) : Bool :=
  !(2.0 * (s.coefficients.entry row column).abs <= rowTotal s row)

/-- The first order of the rows, if there is one, in which each dominates on the diagonal. -/
def dominantOrder (s : System Float n) : Option (Vector (Fin n) n) :=
  (place (dominates s) (List.finRange n) (List.finRange n)).map
    (Vector.cast List.length_finRange)

def isIdentity (order : Vector (Fin n) n) : Bool :=
  (List.finRange n).all fun i => order.get i == i

end Stepwise.Linear
