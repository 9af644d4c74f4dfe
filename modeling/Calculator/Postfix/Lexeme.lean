import Calculator.Operator

/-!
# Lexemes of infix texts

For the conversion to postfix a text is read as operands, parentheses and the
symbols of operators. Here an operand is a run of ASCII letters and digits,
mixed as they come.
-/

namespace Calculator.Postfix

inductive Lexeme where
  | operand (text : Text)
  | opening
  | closing
  | operator (operator : Operator)
  /-- A character that has no place in an infix text. -/
  | foreign (c : Char)
  deriving DecidableEq, Repr

namespace Lexeme

/-- The lexeme of a character that belongs to no operand. -/
def ofSymbol (c : Char) : Lexeme :=
  if c = '(' then .opening
  else if c = ')' then .closing
  else
    match Operator.ofSymbol? c with
    | some found => .operator found
    | none => .foreign c

def attachToOperand (c : Char) : List Lexeme → List Lexeme
  | .operand text :: rest => .operand (c :: text) :: rest
  | lexemes => .operand [c] :: lexemes

/-- Put a character in front of a sequence of lexemes. -/
def attach (c : Char) (lexemes : List Lexeme) : List Lexeme :=
  if c.isAlphanum then attachToOperand c lexemes else ofSymbol c :: lexemes

def ofText (text : Text) : List Lexeme :=
  text.foldr attach []

end Lexeme

end Calculator.Postfix
