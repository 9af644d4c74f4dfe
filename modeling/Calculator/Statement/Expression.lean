import Calculator.Token

/-!
# The form of expressions

An expression is operands joined by operators. Parentheses may stand before and
after operands and after operators; whether they balance is not looked at here.
An operand may carry one sign, the last operand none.
-/

namespace Calculator.Expression

/-- What was read last. -/
inductive Place where
  /-- Nothing, or opening parentheses. -/
  | start
  | sign
  | operand
  | operator
  deriving DecidableEq, Repr

/-- How far the reading of an expression has come. -/
structure Progress where
  place : Place
  joined : Bool
  /-- Whether the operand that is read, or was read last, carries a sign. -/
  signed : Bool
  deriving DecidableEq, Repr

namespace Progress

def initial : Progress :=
  ⟨.start, false, false⟩

/-- Begin an operand, with its sign or without one. -/
def beginOperand? (progress : Progress) (token : Token) : Option Progress :=
  if token.isSingleSign then some { progress with place := .sign, signed := true }
  else if token.isOperand then some { progress with place := .operand, signed := false }
  else none

/-- Read one more token, if the form allows it. -/
def next? (progress : Progress) (token : Token) : Option Progress :=
  match progress.place with
  | .start =>
      if token.kind = .opening then some progress else progress.beginOperand? token
  | .sign =>
      if token.kind = .opening then some progress
      else if token.isOperand then some { progress with place := .operand }
      else none
  | .operand =>
      if token.kind = .closing then some progress
      else if token.kind = .sign || token.kind = .operator then some ⟨.operator, true, false⟩
      else none
  | .operator =>
      if token.kind = .opening || token.kind = .closing then some progress
      else progress.beginOperand? token

/-- Whether what was read is a whole expression. -/
def isComplete (progress : Progress) : Bool :=
  progress.place = .operand && progress.joined && !progress.signed

def accepts (progress : Progress) : List Token → Bool
  | [] => progress.isComplete
  | token :: rest =>
      match progress.next? token with
      | some next => next.accepts rest
      | none => false

end Progress

/-- Whether tokens have the form of an expression. -/
def accepts (tokens : List Token) : Bool :=
  Progress.initial.accepts tokens

end Calculator.Expression
