import Calculator.Log
import Calculator.Text.Blank

/-!
# Thresholds of the log

A threshold is chosen by its name, in any case and with blanks around it. Two
of the names are second names of a level; the chosen name is kept as it is.
-/

namespace Calculator.Settings

/-- The names by which the threshold of the log is chosen. -/
inductive Threshold where
  | critical
  | fatal
  | error
  | warn
  | warning
  | info
  | debug
  | notset
  deriving DecidableEq, Repr

namespace Threshold

def all : List Threshold :=
  [.critical, .fatal, .error, .warn, .warning, .info, .debug, .notset]

def name : Threshold → String
  | .critical => "CRITICAL"
  | .fatal => "FATAL"
  | .error => "ERROR"
  | .warn => "WARN"
  | .warning => "WARNING"
  | .info => "INFO"
  | .debug => "DEBUG"
  | .notset => "NOTSET"

/-- The least rank that a record must have to be written. -/
def rank : Threshold → Nat
  | .critical | .fatal => Log.Level.critical.rank
  | .error => Log.Level.error.rank
  | .warn | .warning => Log.Level.warning.rank
  | .info => Log.Level.info.rank
  | .debug => Log.Level.debug.rank
  | .notset => 0

/-- The capital of a letter, for the letters whose capital is an ASCII letter.
Besides the small letters of ASCII these are the dotless i and the long s. -/
def capital (c : Char) : Char :=
  if c = 'ı' then 'I' else if c = 'ſ' then 'S' else c.toUpper

def ofText? (text : Text) : Option Threshold :=
  all.find? fun threshold => threshold.name.toList = text.strip.map capital

/-- A threshold is named by its own name. -/
@[simp]
theorem ofText?_name (threshold : Threshold) :
    ofText? threshold.name.toList = some threshold := by
  cases threshold <;> rfl

end Threshold

end Calculator.Settings
