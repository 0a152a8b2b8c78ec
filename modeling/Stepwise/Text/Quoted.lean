import Stepwise.Text.ExtendingMark
import Stepwise.Text.Unprintable

/-!
# Quoted texts

A text between double quotes, as error messages show it. Quotes, backslashes and the common controls
are escaped by a backslash, and every other character that would not be seen on its own by its code
point; all else, single quotes included, stands as it is.
-/

namespace Stepwise.Text

/-- A code point in hexadecimal digits: `\u{7f}`. -/
def escapeCodePoint (c : Char) : List Char :=
  ['\\', 'u', '{'] ++ Nat.toDigits 16 c.toNat ++ ['}']

def escape (c : Char) : List Char :=
  match c with
  | '"' => ['\\', '"']
  | '\\' => ['\\', '\\']
  | '\n' => ['\\', 'n']
  | '\r' => ['\\', 'r']
  | '\t' => ['\\', 't']
  | '\x00' => ['\\', '0']
  | c => if extendingMarks.contains c || unprintable.contains c then escapeCodePoint c else [c]

def quoted (cs : List Char) : List Char := '"' :: cs.flatMap escape ++ ['"']

end Stepwise.Text
