import Calculator.Text.Basic

/-!
# Switches of the command line

A switch is written with two dashes and its name; the first two also have a
short spelling of one dash and one letter. Some switches take a value.
-/

namespace Calculator.CommandLine

inductive Switch where
  | help
  | expression
  | prompt
  | logLevel
  | historyFile
  | banner
  deriving DecidableEq, Repr

namespace Switch

/-- All switches, in the order in which the help lists them. -/
def all : List Switch :=
  [.help, .expression, .prompt, .logLevel, .historyFile, .banner]

def letter? : Switch → Option Char
  | .help => some 'h'
  | .expression => some 'e'
  | _ => none

def long : Switch → Text
  | .help => "--help".toList
  | .expression => "--expression".toList
  | .prompt => "--prompt".toList
  | .logLevel => "--log-level".toList
  | .historyFile => "--history-file".toList
  | .banner => "--banner".toList

/-- The spellings of a switch, the short one first. -/
def spellings (switch : Switch) : List Text :=
  (switch.letter?.toList.map fun letter => ['-', letter]) ++ [switch.long]

def takesValue : Switch → Bool
  | .help | .banner => false
  | .expression | .prompt | .logLevel | .historyFile => true

/-- A switch as it is named in diagnostics. -/
def describe (switch : Switch) : Text :=
  Text.join ['/'] switch.spellings

def ofLong? (text : Text) : Option Switch :=
  all.find? fun switch => switch.long = text

def ofLetter? (letter : Char) : Option Switch :=
  all.find? fun switch => switch.letter? = some letter

/-- The switches whose long spelling begins with a text. -/
def abbreviatedBy (text : Text) : List Switch :=
  all.filter fun switch => text.isPrefixOf switch.long

end Switch

end Calculator.CommandLine
