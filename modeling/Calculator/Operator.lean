import Calculator.Text.Basic

/-!
# Operators

The four binary operators and the prefix negation, with their symbols and the
strength with which they bind.
-/

namespace Calculator

/-- A binary operator on integers. -/
inductive Operator where
  | plus
  | minus
  | times
  | divide
  deriving DecidableEq, Repr

namespace Operator

def symbol : Operator → Char
  | .plus => '+'
  | .minus => '-'
  | .times => '*'
  | .divide => '/'

def ofSymbol? : Char → Option Operator
  | '+' => some .plus
  | '-' => some .minus
  | '*' => some .times
  | '/' => some .divide
  | _ => none

/-- How strongly an operator binds its operands. -/
def strength : Operator → Nat
  | .plus | .minus => 1
  | .times | .divide => 2

@[simp]
theorem ofSymbol?_symbol (operator : Operator) : ofSymbol? operator.symbol = some operator := by
  cases operator <;> rfl

end Operator

/-- An operation of a postfix stream: a negation or a binary operator. -/
inductive Operation where
  | negate
  | binary (operator : Operator)
  deriving DecidableEq, Repr

namespace Operation

def symbol : Operation → Char
  | .negate => '~'
  | .binary operator => operator.symbol

/-- How strongly an operation binds: a negation more than any operator. -/
def strength : Operation → Nat
  | .negate => 3
  | .binary operator => operator.strength

end Operation

end Calculator
