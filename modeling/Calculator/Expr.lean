import Calculator.Postfix.Evaluation

/-!
# Expressions as trees

An expression is an operand, or an operation on expressions. Its value is found
from left to right, operands before the operation on them. Listing the tree in
the same order gives a postfix stream with the same value.
-/

namespace Calculator

/-- An expression whose operations are applied as the tree says. -/
inductive Expr where
  | operand (text : Text)
  | negate (body : Expr)
  | binary (operator : Operator) (left right : Expr)
  deriving DecidableEq, Repr

namespace Expr

open Postfix

/-- The value of an expression, or the first fault met on the way to it. -/
def eval (table : Variables) : Expr → Except Fault Int
  | .operand text => operandValue table text
  | .negate body => (body.eval table).map (- ·)
  | .binary operator left right =>
      (left.eval table).bind fun first =>
        (right.eval table).bind fun second => operator.apply first second

/-- The operands and operations of an expression, each operation after what it
is applied to. -/
def postorder : Expr → List Item
  | .operand text => [.operand text]
  | .negate body => body.postorder ++ [.operation .negate]
  | .binary operator left right =>
      left.postorder ++ right.postorder ++ [.operation (.binary operator)]

/-- Running the listing of an expression puts its value on the stack. -/
theorem run_postorder (table : Variables) (stack : List Int) (e : Expr) :
    run table stack e.postorder = (e.eval table).map (· :: stack) := by
  induction e generalizing stack with
  | operand text =>
      rw [postorder, run_cons, step, eval]
      cases operandValue table text <;> rfl
  | negate body ih =>
      rw [postorder, run_append, ih, eval]
      cases body.eval table <;> rfl
  | binary operator left right ihleft ihright =>
      rw [postorder, run_append, run_append, ihleft, eval]
      cases left.eval table with
      | error fault => rfl
      | ok first =>
          change ((run table (first :: stack) right.postorder).bind _) = _
          rw [ihright]
          cases right.eval table with
          | error fault => rfl
          | ok second =>
              change run table (second :: first :: stack) [_] = (operator.apply first second).map _
              rw [run_cons, step, operate]
              cases operator.apply first second <;> rfl

/-- The listing of an expression has the value of the expression. -/
theorem evaluate_postorder (table : Variables) (e : Expr) :
    evaluate table e.postorder = e.eval table := by
  rw [evaluate, run_postorder]
  cases e.eval table <;> rfl

end Expr

end Calculator
