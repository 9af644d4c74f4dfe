import Calculator.Fault

/-!
# Integer arithmetic

Integers have no bounds. Division rounds toward zero and has no value for a
zero divisor.
-/

namespace Calculator

/-- The quotient rounded toward zero. -/
def divide (dividend divisor : Int) : Except Fault Int :=
  if divisor = 0 then .error .divisionByZero else .ok (dividend.tdiv divisor)

namespace Operator

def apply (operator : Operator) (left right : Int) : Except Fault Int :=
  match operator with
  | .plus => .ok (left + right)
  | .minus => .ok (left - right)
  | .times => .ok (left * right)
  | .divide => Calculator.divide left right

/-- The operator written as a text of one symbol. -/
def ofText? : Text → Option Operator
  | [c] => ofSymbol? c
  | _ => none

def applyNamed (symbol : Text) (left right : Int) : Except Fault Int :=
  match ofText? symbol with
  | some operator => operator.apply left right
  | none => .error (.unknownOperator symbol)

end Operator

end Calculator
