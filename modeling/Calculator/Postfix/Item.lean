import Calculator.Arithmetic

/-!
# Postfix streams

In a postfix stream an operation stands after the values that it is applied to,
so that no parentheses are needed. The written form has one space between
neighbouring items; more spaces do no harm in reading.
-/

namespace Calculator.Postfix

inductive Item where
  | operand (text : Text)
  | operation (operation : Operation)
  deriving DecidableEq, Repr

namespace Item

def text : Item → Text
  | .operand text => text
  | .operation applied => [applied.symbol]

/-- The item that a word stands for. A word that is no symbol of an operation
is an operand. -/
def ofText (word : Text) : Item :=
  if word = [Operation.negate.symbol] then .operation .negate
  else
    match Operator.ofText? word with
    | some operator => .operation (.binary operator)
    | none => .operand word

end Item

def write (items : List Item) : Text :=
  Text.join [' '] (items.map Item.text)

def read (stream : Text) : List Item :=
  ((stream.splitOn ' ').filter fun word => !word.isEmpty).map Item.ofText

end Calculator.Postfix
