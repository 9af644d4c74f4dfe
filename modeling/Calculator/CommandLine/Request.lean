import Calculator.CommandLine.Argument
import Calculator.Settings.Basic

/-!
# Requests made by a command line

The switches of a command line are taken from left to right. Each gives a value
or sets a flag; of two values for one setting the later holds. Switches with one
dash may be written together behind a single dash.
-/

namespace Calculator.CommandLine

/-- What a command line asks for. -/
structure Request where
  /-- The lines to answer instead of reading. A line is missing where its switch
  was given the separator. -/
  lines : List (Option Text)
  overrides : Settings.Offers
  extras : List Text

namespace Request

def empty : Request :=
  ⟨[], [], []⟩

/-- Add a line to answer, or the place of a missing one. -/
def addLine (request : Request) (line : Option Text) : Request :=
  { request with lines := request.lines ++ [line] }

/-- Offer a value for a setting, over one that was offered before. -/
def offer (request : Request) (field : Settings.Field) (value : Settings.Value) : Request :=
  { request with overrides := (field.name.toList, value) :: request.overrides }

def addExtra (request : Request) (text : Text) : Request :=
  { request with extras := request.extras ++ [text] }

end Request

/-- What a switch that takes no value adds to a request. The help ends the
reading of the command line and adds nothing. -/
def Switch.flag (switch : Switch) (request : Request) : Option Request :=
  match switch with
  | .help => none
  | .banner => some (request.offer .showBanner (.flag true))
  | .expression | .prompt | .logLevel | .historyFile => some request

/-- The text that a switch is given by its value. The separator is taken out of
the value, so that a value that consists of it gives no text. -/
def givenText? (value : Text) : Option Text :=
  if value = separator then none else some value

/-- What the value of a switch offers for a setting: its text or, where that is
missing, a list without members. -/
def offered (value : Text) : Settings.Value :=
  match givenText? value with
  | some text => .text text
  | none => .composite

def Switch.assign (switch : Switch) (value : Text) (request : Request) : Request :=
  match switch with
  | .expression => request.addLine (givenText? value)
  | .prompt => request.offer .prompt (offered value)
  | .logLevel => request.offer .threshold (offered value)
  | .historyFile => request.offer .historyFile (offered value)
  | .help | .banner => request

/-- What one argument spells: switches without values, then perhaps one with a
value, which may be left to the next argument; or text that belongs to no switch. -/
structure Spelled where
  flags : List Switch
  valued : Option (Switch × Option Text)
  stray : Option Text

namespace Spelled

def ofFlag (switch : Switch) : Spelled :=
  ⟨[switch], none, none⟩

/-- A switch with a value, or one that waits for it. -/
def ofValued (switch : Switch) (value : Option Text) : Spelled :=
  ⟨[], some (switch, value), none⟩

def ofStray (text : Text) : Spelled :=
  ⟨[], none, some text⟩

def addFlag (switch : Switch) (spelled : Spelled) : Spelled :=
  { spelled with flags := switch :: spelled.flags }

def ofLong (switch : Switch) (attached : Option Text) : Except Misuse Spelled :=
  if switch.takesValue then .ok (ofValued switch attached)
  else
    match attached with
    | some value => .error (.needlessValue switch value)
    | none => .ok (ofFlag switch)

/-- What letters behind a single dash spell, given the switch of the first of
them and the text after it. That text is the value of a switch that takes one;
otherwise it must go on with the letter of another switch. -/
def ofLetters (switch : Switch) : Text → Except Misuse Spelled
  | [] => .ok (if switch.takesValue then ofValued switch none else ofFlag switch)
  | letter :: rest =>
      if switch.takesValue then .ok (ofValued switch (some (letter :: rest)))
      else
        match Switch.ofLetter? letter with
        | some next => (ofLetters next rest).map (addFlag switch)
        | none => .error (.needlessValue switch (letter :: rest))

/-- What a short spelling spells, given the text after its letter. An equals
sign right after the letter is left out, and attaches a value even if nothing
follows it. -/
def ofShort (switch : Switch) : Text → Except Misuse Spelled
  | ['='] => ofLong switch (some [])
  | '=' :: tail => ofLetters switch tail
  | tail => ofLetters switch tail

def ofArgument : Argument → Except Misuse Spelled
  | .short switch tail => ofShort switch tail
  | .long switch attached => ofLong switch attached
  | .word text | .unknown text => .ok (ofStray text)
  | .separator => .ok (ofStray separator)

/-- The switch that waits for its value. -/
def waiting? (spelled : Spelled) : Option Switch :=
  match spelled.valued with
  | some (switch, none) => some switch
  | _ => none

/-- The next argument as the value that a switch waits for. -/
def supply (spelled : Spelled) (switch : Switch) (value : Text) : Spelled :=
  { spelled with valued := some (switch, some value) }

def addValued (spelled : Spelled) (request : Request) : Request :=
  match spelled.valued with
  | some (switch, some value) => switch.assign value request
  | _ => request

def addStray (spelled : Spelled) (request : Request) : Request :=
  match spelled.stray with
  | some text => request.addExtra text
  | none => request

/-- A request with what an argument adds to it, or nothing if the argument asks
for the help. -/
def extend? (spelled : Spelled) (request : Request) : Option Request :=
  (spelled.flags.foldlM (fun request flag => Switch.flag flag request) request).map fun request =>
    spelled.addStray (spelled.addValued request)

end Spelled

/-- Take arguments from left to right. The result is a request, or nothing if
the help is asked for. -/
def take (request : Request) : List Argument → Except Misuse (Option Request)
  | [] =>
      if request.extras.isEmpty then .ok (some request)
      else .error (.unrecognized request.extras)
  | argument :: rest =>
      match Spelled.ofArgument argument with
      | .error misuse => .error misuse
      | .ok spelled =>
          match spelled.waiting? with
          | some switch =>
              match rest with
              | .word value :: rest =>
                  match (spelled.supply switch value).extend? request with
                  | some request => take request rest
                  | none => .ok none
              | _ => .error (.missingValue switch)
          | none =>
              match spelled.extend? request with
              | some request => take request rest
              | none => .ok none

/-- What a command line asks for, or nothing if it asks for the help. -/
def Request.ofTexts (arguments : List Text) : Except Misuse (Option Request) :=
  (Argument.ofTexts arguments).bind (take .empty)

end Calculator.CommandLine
