import Calculator.Status

/-!
# Statements

A line without blanks and redundant signs is a command, an assignment, a lone
operand or an expression, or it is refused.
-/

namespace Calculator

/-- What a line turns out to be. -/
inductive Statement where
  /-- None of the others. -/
  | refused (why : Refusal)
  | exit
  | help
  | assignment
  /-- A lone operand, with the value that it has. -/
  | operand (value : Int)
  | expression
  deriving DecidableEq, Repr

namespace Statement

def status : Statement → Status
  | .refused why => .refused why
  | .exit => .exit
  | .help => .command
  | .assignment => .assignment
  | .operand _ => .proceed
  | .expression => .ok

def value? : Statement → Option Int
  | .operand value => some value
  | _ => none

/-- The statement that a command makes. -/
def ofCommand (text : Text) : Statement :=
  if text = "/exit".toList then .exit
  else if text = "/help".toList then .help
  else .refused .unknownCommand

end Statement

end Calculator
