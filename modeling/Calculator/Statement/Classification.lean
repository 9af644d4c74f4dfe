import Calculator.Statement.Assignment
import Calculator.Statement.Expression
import Calculator.Statement.Operand

/-!
# Classification

A line is classified by what it holds: a leading slash makes a command, an
equals sign an assignment. All other lines are lone operands or expressions.
-/

namespace Calculator.Statement

/-- What a line that is tried as a lone operand turns out to be. -/
def ofOperand (table : Variables) (text : Text) : Except Fault Statement :=
  if Operand.isLone (Token.ofText text) then
    (Operand.resolve table text).map fun
      | some value => .operand value
      | none => .refused .unknownVariable
  else .ok (.refused .invalidIdentifier)

/-- What a line turns out to be that is neither command nor assignment. -/
def ofCalculation (table : Variables) (text : Text) : Except Fault Statement :=
  if Operand.isTried text then ofOperand table text
  else if Expression.accepts (Token.ofText text) then .ok .expression
  else .ok (.refused .invalidExpression)

def classify (table : Variables) (text : Text) : Except Fault Statement :=
  if text.head? = some '/' then .ok (ofCommand text)
  else
    match Assignment.check? text with
    | some statement => .ok statement
    | none => ofCalculation table text

/-- The records of a classification: the tokens are listed of lines that are
neither commands nor assignments. -/
def records (text : Text) : List Log.Record :=
  if text.head? = some '/' || text.contains '=' then []
  else
    [⟨.classification, .debug,
      s!"Tokens for {text.quoted}: {Token.describeListing (Token.listing text)}"⟩]

end Calculator.Statement
