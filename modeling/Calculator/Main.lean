import Calculator.CommandLine.Run

/-!
# The program

The program reads its arguments, its environment and its input, and writes what
the runs of the library come to.
-/

namespace Calculator

def readVariable (name : String) : IO Settings.Environment := do
  return (← IO.getEnv name).toList.map fun value => (name.toList, value.toList)

def readEnvironment : IO Settings.Environment := do
  let fields := [Settings.Field.prompt, .threshold, .historyFile, .showBanner]
  let found ← (fields.filterMap Settings.Field.variableName?).mapM readVariable
  return found.flatten

/-- The lines up to the next line feed of the input, or none at its end. A
carriage return may have ended some of them before. -/
def readLines : IO (List Text) := do
  return Text.lines (← (← IO.getStdin).getLine).toList

def showEvent (settings : Settings) (event : Shell.Event) : IO Unit := do
  IO.print (String.ofList event.output)
  (← IO.getStdout).flush
  IO.eprint (String.ofList (event.error settings.threshold.rank))

def showResult (result : CommandLine.Result) : IO UInt32 := do
  IO.print (String.ofList result.output)
  IO.eprint (String.ofList result.error)
  return result.code.toUInt32

def showFault (fault : Fault) : IO UInt32 := do
  IO.eprintln (fault.message [])
  return 1

/-- Take turns until the last one, given the lines that are read already. -/
partial def converse (settings : Settings) (table : Variables) (ahead : List Text) :
    IO UInt32 := do
  showEvent settings (.ask settings.prompt)
  let lines ← if ahead.isEmpty then readLines else pure ahead
  match Shell.turn settings table (lines.head?.map .line) with
  | .error fault => showFault fault
  | .ok turn =>
      turn.events.forM (showEvent settings)
      if turn.last then return 0
      converse settings turn.table lines.tail

/-- Answer given lines, up to one that asks for the exit. -/
def answerEach (settings : Settings) (table : Variables) : List (Option Text) → IO UInt32
  | [] => return 0
  | line :: rest =>
      match Shell.answerGiven settings table line with
      | .error fault => showFault fault
      | .ok turn => do
          turn.events.forM (showEvent settings)
          if turn.last then return 0
          answerEach settings turn.table rest

def serve (settings : Settings) (request : CommandLine.Request) : IO UInt32 := do
  showEvent settings (.record (CommandLine.started settings))
  if request.lines.isEmpty then
    (Shell.opening settings).forM (showEvent settings)
    converse settings .empty []
  else answerEach settings .empty request.lines

end Calculator

open Calculator in
def main (arguments : List String) : IO UInt32 := do
  match CommandLine.prepare (arguments.map String.toList) (← readEnvironment) with
  | .error result => showResult result
  | .ok (settings, request) => serve settings request
