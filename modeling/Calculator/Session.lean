import Calculator.Postfix.Conversion
import Calculator.Postfix.Evaluation
import Calculator.Statement.Classification

/-!
# Sessions

A session answers one line at a time and keeps the table of variables between
them. A line loses its blanks and redundant signs, is classified, and is then
answered as the statement that it is.
-/

namespace Calculator

/-- What a line comes to for the user. -/
structure Outcome where
  status : Status
  /-- The line to show, if there is one. -/
  output : Option Text
  /-- Whether the calculation failed, rather than the line being refused. -/
  internal : Bool
  deriving DecidableEq, Repr

namespace Outcome

def silent (status : Status) : Outcome :=
  ⟨status, none, false⟩

def refusal (why : Refusal) : Outcome :=
  ⟨.refused why, some why.describe.toList, false⟩

def number (status : Status) (value : Int) : Outcome :=
  ⟨status, some (Numeral.write value), false⟩

/-- The outcome of a calculation that failed. -/
def failure (message : String) : Outcome :=
  ⟨.proceed, some ("Error: " ++ message).toList, true⟩

end Outcome

namespace Session

/-- The answer to a line: its outcome, the table after it and the records of
its processing. -/
structure Reply where
  outcome : Outcome
  table : Variables
  log : List Log.Record

/-- A reply that leaves the table alone and logs nothing. -/
def Reply.keep (table : Variables) (outcome : Outcome) : Reply :=
  ⟨outcome, table, []⟩

/-- A reply with records in front of its own. -/
def Reply.after (records : List Log.Record) (reply : Reply) : Reply :=
  { reply with log := records ++ reply.log }

/-- The answer to an expression whose stream was evaluated. A name without a
value refuses the line, a zero divisor or a defect of the stream is a failed
calculation. -/
def replyToValue (table : Variables) (text stream : Text) :
    Except Fault Int → Except Fault Reply
  | .ok value => .ok (.keep table (.number .ok value))
  | .error (.unbound name) =>
      .ok ⟨.refusal .invalidIdentifier, table,
        [⟨.conversion, .debug, (Fault.unbound name).message stream⟩]⟩
  | .error .divisionByZero =>
      .ok ⟨.failure "division by zero", table,
        [⟨.session, .error, s!"Division by zero while evaluating {text.quoted}"⟩]⟩
  | .error (.malformed defect) =>
      .ok ⟨.failure (defect.message stream), table,
        [⟨.session, .error,
          s!"Malformed postfix stream for {text.quoted}: {defect.message stream}"⟩]⟩
  | .error fault => .error fault

/-- The answer to an expression. Its stream is written, and the written stream is
read back to be evaluated. -/
def calculate (table : Variables) (text : Text) : Except Fault Reply :=
  let reply :=
    match Postfix.ofInfix text with
    | .ok items =>
        let stream := Postfix.write items
        replyToValue table text stream (Postfix.evaluate table (Postfix.read stream))
    | .error _ => .ok (.keep table (.refusal .invalidExpression))
  reply.map (.after [Postfix.conversionRecord text])

def assign (table : Variables) (text : Text) : Except Fault Reply :=
  (Assignment.perform table text).map fun effect =>
    match effect.status with
    | .refused why => ⟨.refusal why, effect.table, effect.log⟩
    | _ => ⟨.silent .assignment, effect.table, effect.log⟩

def answer (table : Variables) (text : Text) : Statement → Except Fault Reply
  | .refused why => .ok (.keep table (.refusal why))
  | .exit => .ok (.keep table (.silent .exit))
  | .help => .ok (.keep table (.silent .command))
  | .operand value => .ok (.keep table (.number .proceed value))
  | .assignment => assign table text
  | .expression => calculate table text

def classified (text : Text) (statement : Statement) : Log.Record :=
  ⟨.session, .debug, s!"Classified {text.quoted} as {statement.status.name}"⟩

/-- The answer to a line without blanks and redundant signs. -/
def processNormal (table : Variables) (text : Text) : Except Fault Reply :=
  (Statement.classify table text).bind fun statement =>
    (answer table text statement).map
      (.after (Statement.records text ++ [classified text statement]))

/-- The answer to a line. A blank line is passed over. -/
def process (table : Variables) (line : Text) : Except Fault Reply :=
  let text := line.squeeze
  if text.isEmpty then .ok (.keep table (.silent .proceed))
  else (processNormal table (Signs.normalize text)).map (.after (Signs.records text))

/-- The answers to lines, each given with the table that the lines before it
leave. Lines after one that asks for the exit are answered as well. -/
def replies (table : Variables) : List Text → Except Fault (List Reply)
  | [] => .ok []
  | line :: rest =>
      (process table line).bind fun reply => (replies reply.table rest).map (reply :: ·)

end Session

end Calculator
