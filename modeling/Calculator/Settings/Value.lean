import Calculator.Settings.Threshold

/-!
# Values offered for settings

A value offered for a setting may be of any kind. It is checked by the rule of
its setting, which gives the value of the setting or says what is wrong.
-/

namespace Calculator.Settings

inductive Value where
  | null
  | flag (value : Bool)
  | integer (value : Int)
  /-- A number that is no integer, be it finite or not. -/
  | fraction
  | text (value : Text)
  /-- A list or a record of values. -/
  | composite
  deriving DecidableEq, Repr

/-- What is wrong with a value offered for a setting. -/
inductive Violation where
  | notText
  | emptyText
  | unknownThreshold (given : Text)
  | notFlag
  /-- The text or the integer stands for no flag. -/
  | unreadableFlag
  deriving DecidableEq, Repr

namespace Violation

def kind : Violation → String
  | .notText => "string_type"
  | .emptyText => "string_too_short"
  | .unknownThreshold _ => "value_error"
  | .notFlag => "bool_type"
  | .unreadableFlag => "bool_parsing"

def message : Violation → Text
  | .notText => "Input should be a valid string".toList
  | .emptyText => "String should have at least 1 character".toList
  | .unknownThreshold given => "Value error, Unknown log level: ".toList ++ given
  | .notFlag => "Input should be a valid boolean".toList
  | .unreadableFlag =>
      "Input should be a valid boolean, unable to interpret input".toList

end Violation

namespace Value

def toText : Value → Except Violation Text
  | .text value => .ok value
  | _ => .error .notText

def toNonempty (value : Value) : Except Violation Text :=
  value.toText.bind fun text => if text.isEmpty then .error .emptyText else .ok text

def toThreshold (value : Value) : Except Violation Threshold :=
  value.toText.bind fun text =>
    match Threshold.ofText? text with
    | some threshold => .ok threshold
    | none => .error (.unknownThreshold text)

/-- The name of a file or nothing. A blank name is none. -/
def toFile : Value → Except Violation (Option Text)
  | .null => .ok none
  | value => value.toText.map fun text => if text.strip.isEmpty then none else some text

def setTexts : List String :=
  ["1", "on", "t", "true", "y", "yes"]

def unsetTexts : List String :=
  ["0", "off", "f", "false", "n", "no"]

/-- The flag that a text stands for, in any case. -/
def flagOfText (text : Text) : Except Violation Bool :=
  let small := String.ofList (text.map Char.toLower)
  if setTexts.contains small then .ok true
  else if unsetTexts.contains small then .ok false
  else .error .unreadableFlag

/-- Whether an integer has a place in a signed word of 64 bits. -/
def fitsWord (value : Int) : Bool :=
  -Int.pow 2 63 ≤ value && value < Int.pow 2 63

/-- The flag that an integer stands for. One and zero stand for flags; any other
integer is unreadable as one if it fits into a word, and else of the wrong kind. -/
def flagOfInteger (value : Int) : Except Violation Bool :=
  if value = 1 then .ok true
  else if value = 0 then .ok false
  else if fitsWord value then .error .unreadableFlag
  else .error .notFlag

/-- A flag, or a number or a text that stands for one. -/
def toFlag : Value → Except Violation Bool
  | .flag value => .ok value
  | .integer value => flagOfInteger value
  | .text value => flagOfText value
  | .null | .fraction | .composite => .error .notFlag

end Value

end Calculator.Settings
