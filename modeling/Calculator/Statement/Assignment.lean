import Calculator.Fault
import Calculator.Statement.Basic
import Calculator.Token
import Calculator.Variables

/-!
# Assignments

An assignment names its target to the left of the first equals sign. The
source to the right is a name or an integer with an optional minus.
-/

namespace Calculator.Assignment

def isTarget : List Token → Bool
  | [token] => token.kind = .name
  | _ => false

def isSource : List Token → Bool
  | [token] => token.isOperand
  | [sign, token] => sign.kind = .sign && sign.text = ['-'] && token.kind = .number
  | _ => false

/-- Check the form of an assignment. A text without an equals sign is none. -/
def check? (text : Text) : Option Statement :=
  let tokens := Token.ofText text
  let isOther (token : Token) : Bool := token.kind ≠ .equals
  match tokens.dropWhile isOther with
  | [] => none
  | _ :: source =>
      some <|
        if !isTarget (tokens.takeWhile isOther) then .refused .invalidIdentifier
        else if !isSource source then .refused .invalidAssignment
        else .assignment

/-- The parts of a text to the left and to the right of its first equals sign. -/
def split? (text : Text) : Option (Text × Text) :=
  match text.dropWhile (· ≠ '=') with
  | [] => none
  | _ :: source => some (text.takeWhile (· ≠ '='), source)

/-- The value that the source of an assignment stands for. -/
def sourceValue? (table : Variables) (source : Text) : Option Int :=
  (Numeral.read? source).orElse fun _ => table.get? source

/-- What carrying out an assignment comes to. -/
structure Effect where
  status : Status
  table : Variables
  log : List Log.Record

/-- Carry out an assignment. A source without a value leaves the table alone. -/
def perform (table : Variables) (text : Text) : Except Fault Effect :=
  match split? text with
  | none => .error .missingEquals
  | some (target, source) =>
      match sourceValue? table source with
      | none =>
          .ok ⟨.refused .unknownVariable, table,
            [⟨.assignment, .debug,
              s!"Cannot assign {target.quoted}: {source.quoted} is unbound"⟩]⟩
      | some value =>
          .ok ⟨.ok, table.bind target value,
            [⟨.assignment, .debug,
              s!"Bound {target.quoted} to {String.ofList (Numeral.write value)}"⟩]⟩

end Calculator.Assignment
