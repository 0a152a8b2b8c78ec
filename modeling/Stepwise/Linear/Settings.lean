import Stepwise.Decimal.Text
import Stepwise.Tolerance

/-!
# Settings of a solver for linear systems
-/

namespace Stepwise.Linear

structure Settings where
  tolerance : Float := defaultTolerance

inductive SettingError where
  | tolerance (value : Float)

def SettingError.message : SettingError → String
  | .tolerance value =>
    "tolerance must be finite and positive, got " ++ Decimal.plainText value

namespace Settings

/-- Sets the tolerance; one that is refused changes nothing. -/
def withTolerance (settings : Settings) (tolerance : Float) : Except SettingError Settings :=
  if isTolerance tolerance then .ok { settings with tolerance } else .error (.tolerance tolerance)

def make (tolerance : Float) : Except SettingError Settings := ({} : Settings).withTolerance tolerance

inductive Call where
  | make (tolerance : Float)
  | tolerance (tolerance : Float)

def call (settings : Settings) : Call → Except SettingError Settings
  | .make tolerance => make tolerance
  | .tolerance tolerance => settings.withTolerance tolerance

/-- The settings after a series of calls, of which those that are refused change nothing. -/
def after (settings : Settings) (calls : List Call) : Settings :=
  calls.foldl (fun settings call => (settings.call call).toOption.getD settings) settings

end Settings

end Stepwise.Linear
