import Calculator.Fault
import Calculator.Text.Letter
import Calculator.Token
import Calculator.Variables

/-!
# Lone operands

A line that holds nothing but an operand is answered with its value. Which
lines are tried as lone operands is decided by their characters, before their
tokens are looked at.
-/

namespace Calculator.Operand

/-- Whether a line is tried as a lone operand: all of it are letters, or all
between its first and its last character are decimal digits. A line of at most
two characters always is. -/
def isTried (text : Text) : Bool :=
  text.all Text.isLetter || (text.drop 1).dropLast.all Text.isDecimal

/-- The tokens after a leading single sign. -/
def unsigned : List Token → List Token
  | [] => []
  | token :: rest => if token.isSingleSign then rest else token :: rest

/-- Whether tokens are one operand with at most one sign. -/
def isLone (tokens : List Token) : Bool :=
  match unsigned tokens with
  | [token] => token.isOperand
  | _ => false

/-- The value of an operand, if it has one. A number stands for itself, and
anything else is looked up as it is written, signs included. -/
def resolve (table : Variables) (text : Text) : Except Fault (Option Int) :=
  if Numeral.isNumber (text.dropWhile Signs.isSign) then (Numeral.value text).map some
  else .ok (table.get? text)

end Calculator.Operand
