import Stepwise.Root.Error

/-!
# Brackets

Two points at which the formula has values of opposite signs, so that a root of a continuous formula
lies between them.
-/

namespace Stepwise.Root

structure Bracket where
  left : Sample
  right : Sample

namespace Bracket

/-- Orders two samples whose values have opposite signs. A zero has no sign. -/
def make {ε : Type} (a b : Sample) : Except (Error ε) Bracket :=
  if a.value * b.value >= 0.0 || a.value.isNaN || b.value.isNaN then .error (.noSignChange a b)
  else if a.point < b.point then .ok ⟨a, b⟩
  else .ok ⟨b, a⟩

def midpoint (k : Bracket) : Float := 0.5 * (k.left.point + k.right.point)

def width (k : Bracket) : Float := k.right.point - k.left.point

/-- Where the chord between the two values crosses zero. -/
def chordRoot (k : Bracket) : Float :=
  k.left.point - (k.left.value * (k.right.point - k.left.point)) / (k.right.value - k.left.value)

def isEnd (k : Bracket) (x : Float) : Bool := x == k.left.point || x == k.right.point

/-- Puts a sample in place of the end whose value has its sign. -/
def shrink (k : Bracket) (s : Sample) : Bracket :=
  if k.left.value * s.value < 0.0 then { k with right := s } else { k with left := s }

end Bracket

end Stepwise.Root
