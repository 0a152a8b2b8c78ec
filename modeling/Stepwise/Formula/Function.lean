/-!
# Functions and constants

The names that a formula may use without explanation.
-/

namespace Stepwise.Formula

inductive Function where
  | sin
  | cos
  | tan
  | asin
  | acos
  | atan
  | sinh
  | cosh
  | tanh
  | exp
  | ln
  | log10
  | log2
  | sqrt
  | cbrt
  | abs
  | floor
  | ceil
  | signum
deriving DecidableEq, Repr

namespace Function

/-- The function with a name; `log` is the natural logarithm. -/
def ofName? (name : String) : Option Function :=
  match name with
  | "sin" => some .sin
  | "cos" => some .cos
  | "tan" => some .tan
  | "asin" => some .asin
  | "acos" => some .acos
  | "atan" => some .atan
  | "sinh" => some .sinh
  | "cosh" => some .cosh
  | "tanh" => some .tanh
  | "exp" => some .exp
  | "log" => some .ln
  | "ln" => some .ln
  | "log10" => some .log10
  | "log2" => some .log2
  | "sqrt" => some .sqrt
  | "cbrt" => some .cbrt
  | "abs" => some .abs
  | "floor" => some .floor
  | "ceil" => some .ceil
  | "signum" => some .signum
  | _ => none

/-- The sign of a number as a number. That of both zeros is zero. -/
def signOf (x : Float) : Float :=
  if x == 0.0 then 0.0 else if x < 0.0 then -1.0 else if 0.0 < x then 1.0 else x

def apply : Function → Float → Float
  | .sin, x => x.sin
  | .cos, x => x.cos
  | .tan, x => x.tan
  | .asin, x => x.asin
  | .acos, x => x.acos
  | .atan, x => x.atan
  | .sinh, x => x.sinh
  | .cosh, x => x.cosh
  | .tanh, x => x.tanh
  | .exp, x => x.exp
  | .ln, x => x.log
  | .log10, x => x.log10
  | .log2, x => x.log2
  | .sqrt, x => x.sqrt
  | .cbrt, x => x.cbrt
  | .abs, x => x.abs
  | .floor, x => x.floor
  | .ceil, x => x.ceil
  | .signum, x => signOf x

end Function

/-- The constants: the circle's, by two names, and that of the natural logarithm. -/
def constant? (name : String) : Option Float :=
  match name with
  | "pi" => some 3.141592653589793
  | "π" => some 3.141592653589793
  | "e" => some 2.718281828459045
  | _ => none

end Stepwise.Formula
