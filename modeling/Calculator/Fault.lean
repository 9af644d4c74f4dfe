import Calculator.Numeral
import Calculator.Operator

/-!
# Faults

A fault is the reason why a computation has no value. Unbound names, zero
divisors and missing lines come from what the user typed; all others say that a
function was called on something that the stages before it never produce.
-/

namespace Calculator

/-- What is wrong with a postfix stream. -/
inductive Defect where
  | missingOperands (operator : Operator)
  | nothingToNegate
  /-- The stream did not leave exactly one value. -/
  | valuesLeft (count : Nat)
  deriving DecidableEq, Repr

def Defect.message (stream : Text) : Defect → String
  | .missingOperands operator =>
      s!"not enough operands for {Text.quoted [operator.symbol]} in {stream.quoted}"
  | .nothingToNegate => s!"nothing to negate in {stream.quoted}"
  | .valuesLeft count => s!"{count} values left on the stack for {stream.quoted}"

/-- Why a computation has no value. -/
inductive Fault where
  | unbound (name : Text)
  | divisionByZero
  | malformed (defect : Defect)
  | unknownOperator (symbol : Text)
  /-- A text of digit characters is not a numeral. -/
  | unreadable (numeral : Text)
  | missingEquals
  /-- A line that the command line gives to be answered is missing. -/
  | missingLine
  deriving DecidableEq, Repr

def Fault.message (subject : Text) : Fault → String
  | .unbound name => s!"Unbound identifier {name.quoted}"
  | .divisionByZero => "integer division or modulo by zero"
  | .malformed defect => defect.message subject
  | .unknownOperator symbol => s!"unknown operator {symbol.quoted}"
  | .unreadable numeral => Numeral.refusal numeral
  | .missingEquals => "not enough values to unpack (expected 2, got 1)"
  | .missingLine => "expected string or bytes-like object, got 'list'"

/-- The value of a numeral, or the fault that it is none. -/
def Numeral.value (text : Text) : Except Fault Int :=
  match Numeral.read? text with
  | some value => .ok value
  | none => .error (.unreadable text)

end Calculator
