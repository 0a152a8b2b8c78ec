import Stepwise.Decimal.Text
import Stepwise.Formula.Word
import Stepwise.Text.Quoted
import Stepwise.Tolerance

/-!
# Settings of a root search

Each setting is checked when it is made; a value that is refused changes nothing.
-/

namespace Stepwise.Root

structure Settings where
  tolerance : Float := defaultTolerance
  maxIterations : Nat := 1000
  variableName : String := "x"
  /-- The half width of the differences that stand for a derivative. -/
  derivativeStep : Float := 1e-5

inductive SettingError where
  | tolerance (value : Float)
  | variableName (name : String)
  | derivativeStep (value : Float)

def SettingError.message : SettingError → String
  | .tolerance value =>
    "tolerance must be finite and positive, got " ++ Decimal.plainText value
  | .variableName name =>
    "variable must be an identifier, got " ++ String.ofList (Text.quoted name.toList)
  | .derivativeStep value =>
    "derivative step must be finite and positive, got " ++ Decimal.plainText value

namespace Settings

def withTolerance (settings : Settings) (tolerance : Float) : Except SettingError Settings :=
  if isTolerance tolerance then .ok { settings with tolerance } else .error (.tolerance tolerance)

def withMaxIterations (settings : Settings) (maxIterations : Nat) : Settings :=
  { settings with maxIterations }

def withVariableName (settings : Settings) (variableName : String) : Except SettingError Settings :=
  if Formula.isIdentifier variableName then .ok { settings with variableName }
  else .error (.variableName variableName)

def withDerivativeStep (settings : Settings) (derivativeStep : Float) :
    Except SettingError Settings :=
  if isTolerance derivativeStep then .ok { settings with derivativeStep }
  else .error (.derivativeStep derivativeStep)

/-- Settings made at once; the tolerance is checked first. -/
def make (tolerance : Float) (maxIterations : Nat) (variableName : String) :
    Except SettingError Settings := do
  let settings ← ({} : Settings).withTolerance tolerance
  (settings.withMaxIterations maxIterations).withVariableName variableName

inductive Call where
  | make (tolerance : Float) (maxIterations : Nat) (variableName : String)
  | tolerance (tolerance : Float)
  | maxIterations (maxIterations : Nat)
  | variableName (variableName : String)

def call (settings : Settings) : Call → Except SettingError Settings
  | .make tolerance maxIterations variableName => make tolerance maxIterations variableName
  | .tolerance tolerance => settings.withTolerance tolerance
  | .maxIterations maxIterations => .ok (settings.withMaxIterations maxIterations)
  | .variableName variableName => settings.withVariableName variableName

/-- The settings after a series of calls, of which those that are refused change nothing. -/
def after (settings : Settings) (calls : List Call) : Settings :=
  calls.foldl (fun settings call => (settings.call call).toOption.getD settings) settings

end Settings

end Stepwise.Root
