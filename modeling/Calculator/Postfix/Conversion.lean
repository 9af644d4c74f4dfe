import Calculator.Log
import Calculator.Postfix.Item
import Calculator.Postfix.Lexeme

/-!
# Conversion to postfix

Operands go to the stream as they come. An operation waits until an operator
that binds no stronger, a closing parenthesis or the end of the text releases
it. Each opening parenthesis starts a level of waiting operations of its own,
so that nothing outside the parentheses is released inside them.

A sign is in prefix position at the start, after an opening parenthesis and
after another operator. There a minus negates, and every other operator is
dropped.
-/

namespace Calculator.Postfix

/-- Why a text has no postfix form. -/
inductive Obstacle where
  | unmatchedClosing
  | unmatchedOpening
  /-- A character has no place in an infix text. -/
  | foreign (c : Char)
  deriving DecidableEq, Repr

def Obstacle.message (text : Text) : Obstacle → String
  | .unmatchedClosing => s!"Unbalanced ')' in {text.quoted}"
  | .unmatchedOpening => s!"Unbalanced '(' in {text.quoted}"
  | .foreign c => s!"Unsupported operator {Text.quoted [c]} in {text.quoted}"

/-- Whether a waiting operation is applied before an operator that follows it. -/
def precedes (operator : Operator) (waiting : Operation) : Bool :=
  operator.strength ≤ waiting.strength

/-- The operations that wait once an operator stands in prefix position. -/
def waitPrefixed (operator : Operator) (waiting : List Operation) : List Operation :=
  if operator = .minus then .negate :: waiting else waiting

/-- Convert lexemes, given the operations that wait on the innermost level and
on the levels around it, latest first, and whether a sign would be in prefix
position. -/
def convert (waiting : List Operation) (outer : List (List Operation)) (prefixed : Bool) :
    List Lexeme → Except Obstacle (List Item)
  | [] =>
      match outer with
      | [] => .ok (waiting.map .operation)
      | _ :: _ => .error .unmatchedOpening
  | .operand text :: rest =>
      (convert waiting outer false rest).map (.operand text :: ·)
  | .opening :: rest => convert [] (waiting :: outer) true rest
  | .closing :: rest =>
      match outer with
      | [] => .error .unmatchedClosing
      | enclosing :: outer =>
          (convert enclosing outer false rest).map (waiting.map .operation ++ ·)
  | .operator operator :: rest =>
      if prefixed then convert (waitPrefixed operator waiting) outer true rest
      else
        (convert (.binary operator :: waiting.dropWhile (precedes operator)) outer true rest).map
          ((waiting.takeWhile (precedes operator)).map .operation ++ ·)
  | .foreign c :: _ => .error (.foreign c)

/-- The postfix form of an infix text. -/
def ofInfix (text : Text) : Except Obstacle (List Item) :=
  convert [] [] true (Lexeme.ofText text)

def conversionRecord (text : Text) : Log.Record :=
  match ofInfix text with
  | .ok items =>
      ⟨.conversion, .debug, s!"Postfix for {text.quoted}: {Text.quoted (write items)}"⟩
  | .error obstacle => ⟨.conversion, .debug, obstacle.message text⟩

end Calculator.Postfix
