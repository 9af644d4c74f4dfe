/-!
# The log

Each stage that processes a line reports what it did as records of a log. A
record names the part of the program that wrote it, its level and a message.
-/

namespace Calculator.Log

/-- How grave a record is. -/
inductive Level where
  | debug
  | info
  | warning
  | error
  | critical
  deriving DecidableEq, Repr

def Level.name : Level → String
  | .debug => "DEBUG"
  | .info => "INFO"
  | .warning => "WARNING"
  | .error => "ERROR"
  | .critical => "CRITICAL"

def Level.rank : Level → Nat
  | .debug => 10
  | .info => 20
  | .warning => 30
  | .error => 40
  | .critical => 50

/-- The part of the program that writes a record. -/
inductive Source where
  | shell
  | session
  | signs
  | classification
  | assignment
  | conversion
  deriving DecidableEq, Repr

def Source.name : Source → String
  | .shell => "smartcalc.main"
  | .session => "smartcalc.session"
  | .signs => "smartcalc.normalizer"
  | .classification => "smartcalc.classifier"
  | .assignment => "smartcalc.assignment"
  | .conversion => "smartcalc.postfix"

structure Record where
  source : Source
  level : Level
  message : String
  deriving DecidableEq, Repr

/-- Whether a record is at least as grave as a threshold. -/
def Record.reaches (record : Record) (threshold : Nat) : Bool :=
  threshold ≤ record.level.rank

/-- A record as one line, its three parts with the given separator between them. -/
def Record.line (separator : String) (record : Record) : String :=
  record.source.name ++ separator ++ record.level.name ++ separator ++ record.message

end Calculator.Log
