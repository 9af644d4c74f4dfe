import Calculator.Text.Basic

/-!
# Statuses

The status of a line says what kind of statement it was and how it ended. Five
of the statuses refuse the line, each with a diagnostic of its own.
-/

namespace Calculator

/-- Why a line is refused. -/
inductive Refusal where
  | unknownCommand
  | invalidExpression
  | invalidIdentifier
  | invalidAssignment
  | unknownVariable
  deriving DecidableEq, Repr

def Refusal.describe : Refusal → String
  | .unknownCommand => "Unknown command"
  | .invalidExpression => "Invalid expression"
  | .invalidIdentifier => "Invalid identifier"
  | .invalidAssignment => "Invalid assignment"
  | .unknownVariable => "Unknown variable"

/-- How a line, or one stage of its processing, ended. -/
inductive Status where
  | ok
  | refused (why : Refusal)
  /-- A command other than the exit was given. -/
  | command
  | assignment
  | exit
  /-- Nothing is left to do but to read on. -/
  | proceed
  deriving DecidableEq, Repr

namespace Status

/-- All statuses, by ascending code. -/
def all : List Status :=
  [.ok, .refused .unknownCommand, .refused .invalidExpression, .refused .invalidIdentifier,
   .refused .invalidAssignment, .command, .assignment, .exit, .proceed,
   .refused .unknownVariable]

def code : Status → Nat
  | .ok => 0
  | .refused .unknownCommand => 1
  | .refused .invalidExpression => 2
  | .refused .invalidIdentifier => 3
  | .refused .invalidAssignment => 4
  | .command => 5
  | .assignment => 6
  | .exit => 7
  | .proceed => 8
  | .refused .unknownVariable => 9

def name : Status → String
  | .ok => "OK"
  | .refused .unknownCommand => "COMMAND_INVALID"
  | .refused .invalidExpression => "EXPR_INVALID"
  | .refused .invalidIdentifier => "ID_INVALID"
  | .refused .invalidAssignment => "ASSIGNMENT_INVALID"
  | .command => "COMMAND"
  | .assignment => "ASSIGNMENT"
  | .exit => "EXIT"
  | .proceed => "CONTINUE"
  | .refused .unknownVariable => "UNKNOWN_VAR"

def ofName? (text : String) : Option Status :=
  all.find? fun status => status.name = text

/-- Every status has a place in the list of all of them, at its code. -/
theorem getElem?_all_code (status : Status) : all[status.code]? = some status := by
  cases status with
  | refused why => cases why <;> rfl
  | _ => rfl

/-- The names tell the statuses apart. -/
@[simp]
theorem ofName?_name (status : Status) : ofName? status.name = some status := by
  cases status with
  | refused why => cases why <;> rfl
  | _ => rfl

/-- Whether the user made an error. -/
def isError : Status → Bool
  | .refused _ => true
  | _ => false

def describe? : Status → Option String
  | .refused why => some why.describe
  | _ => none

end Status

end Calculator
