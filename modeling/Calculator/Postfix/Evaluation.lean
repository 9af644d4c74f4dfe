import Calculator.Postfix.Item
import Calculator.Variables

/-!
# Evaluation of postfix streams

A stream is evaluated from left to right on a stack of values. The first fault
ends the evaluation; a stream that leaves other than one value has a defect.
-/

namespace Calculator.Postfix

def operandValue (table : Variables) (text : Text) : Except Fault Int :=
  if Numeral.isNumber text then Numeral.value text
  else
    match table.get? text with
    | some value => .ok value
    | none => .error (.unbound text)

def operate (operation : Operation) (stack : List Int) : Except Fault (List Int) :=
  match operation, stack with
  | .negate, value :: rest => .ok (-value :: rest)
  | .negate, [] => .error (.malformed .nothingToNegate)
  | .binary operator, right :: left :: rest => (operator.apply left right).map (· :: rest)
  | .binary operator, _ => .error (.malformed (.missingOperands operator))

def step (table : Variables) (stack : List Int) : Item → Except Fault (List Int)
  | .operand text => (operandValue table text).map (· :: stack)
  | .operation operation => operate operation stack

def run (table : Variables) (stack : List Int) (items : List Item) : Except Fault (List Int) :=
  items.foldlM (step table) stack

theorem run_cons (table : Variables) (stack : List Int) (item : Item) (rest : List Item) :
    run table stack (item :: rest) = (step table stack item).bind (run table · rest) := by
  rw [run, List.foldlM_cons]
  rfl

/-- The second part of a stream works on the stack that the first part leaves. -/
theorem run_append (table : Variables) (stack : List Int) (first second : List Item) :
    run table stack (first ++ second) = (run table stack first).bind (run table · second) := by
  rw [run, List.foldlM_append]
  rfl

theorem run_concat (table : Variables) (stack : List Int) (items : List Item) (item : Item) :
    run table stack (items ++ [item]) = (run table stack items).bind (step table · item) := by
  rw [run_append]
  congr 1
  funext stack
  rw [run_cons]
  cases step table stack item <;> rfl

/-- The only value of a stack. -/
def onlyValue : List Int → Except Fault Int
  | [value] => .ok value
  | stack => .error (.malformed (.valuesLeft stack.length))

/-- The value of a stream. -/
def evaluate (table : Variables) (items : List Item) : Except Fault Int :=
  (run table [] items).bind onlyValue

end Calculator.Postfix
