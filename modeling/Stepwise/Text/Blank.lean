import Stepwise.Text.CharSet

/-!
# White space

- `Text.whiteSpace`: the characters with the property White_Space
- `Text.trim`: a text without the white space at its ends
-/

namespace Stepwise.Text

/-- The characters with the property White_Space, 25 of them. -/
def whiteSpace : CharSet := ⟨[
  (0x9, 0xd), (0x20, 0x20), (0x85, 0x85), (0xa0, 0xa0), (0x1680, 0x1680), (0x2000, 0x200a),
  (0x2028, 0x2029), (0x202f, 0x202f), (0x205f, 0x205f), (0x3000, 0x3000)]⟩

example : (whiteSpace.ranges.map fun (first, last) => last + 1 - first).sum = 25 := by decide

def trimEnd (cs : List Char) : List Char := (cs.reverse.dropWhile whiteSpace.contains).reverse

def trim (cs : List Char) : List Char := trimEnd (cs.dropWhile whiteSpace.contains)

end Stepwise.Text
