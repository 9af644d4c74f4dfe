import Calculator.CommandLine.Switch
import Calculator.Text.Digit
import Calculator.Text.Quoted

/-!
# Arguments of the command line

An argument is a switch, perhaps with a value attached, or a word. Long
spellings may be abbreviated as long as only one switch is meant. What looks
like a negative number or holds a space is a word, and so is everything after
the separator of two dashes.
-/

namespace Calculator.CommandLine

/-- The two dashes that make words of all arguments after them. -/
def separator : Text :=
  ['-', '-']

/-- How a command line can be wrong. -/
inductive Misuse where
  | ambiguous (argument : Text) (meant : List Switch)
  | missingValue (switch : Switch)
  | needlessValue (switch : Switch) (value : Text)
  | unrecognized (arguments : List Text)
  deriving DecidableEq, Repr

def Misuse.message : Misuse → Text
  | .ambiguous argument meant =>
      "ambiguous option: ".toList ++ argument ++ " could match ".toList ++
        Text.join ", ".toList (meant.map Switch.long)
  | .missingValue switch =>
      "argument ".toList ++ switch.describe ++ ": expected one argument".toList
  | .needlessValue switch value =>
      "argument ".toList ++ switch.describe ++ ": ignored explicit argument ".toList ++
        value.quote
  | .unrecognized arguments =>
      "unrecognized arguments: ".toList ++ Text.join [' '] arguments

/-- What an argument turns out to be. -/
inductive Argument where
  /-- A switch in its short spelling, with the text that follows its letter. -/
  | short (switch : Switch) (tail : Text)
  /-- A switch in its long spelling, with the value that is attached to it. -/
  | long (switch : Switch) (attached : Option Text)
  /-- A value for the switch before it, or out of place. -/
  | word (text : Text)
  /-- Something like a switch that is none. -/
  | unknown (text : Text)
  /-- The separator of two dashes. -/
  | separator
  deriving DecidableEq, Repr

namespace Argument

/-- The parts of a text before and after its first equals sign. -/
def splitValue (text : Text) : Text × Option Text :=
  match text.dropWhile (· ≠ '=') with
  | [] => (text, none)
  | _ :: value => (text.takeWhile (· ≠ '='), some value)

def isDigits (text : Text) : Bool :=
  !text.isEmpty && text.all Text.isDecimal

/-- Whether a text is a number without a sign: digits, or digits after a point
that may have digits before it. -/
def isUnsignedNumber (text : Text) : Bool :=
  match text.dropWhile Text.isDecimal with
  | [] => isDigits text
  | '.' :: places => isDigits places
  | _ => false

def withoutLineFeed (text : Text) : Text :=
  if text.getLast? = some '\n' then text.dropLast else text

/-- Whether a text is a negative number, perhaps with a line feed behind it. -/
def isNegativeNumber : Text → Bool
  | '-' :: number => isUnsignedNumber (withoutLineFeed number)
  | _ => false

/-- What an argument is that spells no switch, in full or abbreviated. -/
def ofOther (text : Text) : Argument :=
  if isNegativeNumber text || text.contains ' ' then .word text else .unknown text

/-- Read an argument that begins with two dashes and is longer than that. Of
several switches that it may abbreviate the one that it spells in full is meant. -/
def ofLong (text : Text) : Except Misuse Argument :=
  let (spelling, attached) := splitValue text
  match Switch.ofLong? spelling, Switch.abbreviatedBy spelling with
  | some exact, _ => .ok (.long exact attached)
  | none, [] => .ok (ofOther text)
  | none, [only] => .ok (.long only attached)
  | none, meant => .error (.ambiguous text meant)

/-- Read an argument that begins with one dash, given the letter after the dash
and the text after the letter. -/
def ofShort (letter : Char) (tail : Text) : Argument :=
  match Switch.ofLetter? letter with
  | some found => .short found tail
  | none => ofOther ('-' :: letter :: tail)

/-- Read an argument before the separator. -/
def ofText : Text → Except Misuse Argument
  | '-' :: '-' :: rest => ofLong ('-' :: '-' :: rest)
  | '-' :: letter :: tail => .ok (ofShort letter tail)
  | text => .ok (.word text)

def ofTexts : List Text → Except Misuse (List Argument)
  | [] => .ok []
  | text :: rest =>
      if text = CommandLine.separator then .ok (.separator :: rest.map .word)
      else (ofText text).bind fun argument => (ofTexts rest).map (argument :: ·)

end Argument

end Calculator.CommandLine
