import Calculator.CommandLine.Request
import Calculator.Settings.Environment
import Calculator.Shell
import Calculator.Text.Lines

/-!
# Runs of the program

A run starts from the arguments of the command line, the environment and the
lines of the input. It ends with an exit code and with all that was written to
the standard output and the standard error.
-/

namespace Calculator.CommandLine

def usage : Text :=
  ("usage: smartcalc [-h] [-e EXPRESSION] [--prompt PROMPT]\n" ++
    "                 [--log-level LOG_LEVEL] [--history-file HISTORY_FILE]\n" ++
    "                 [--banner]\n").toList

def help : Text :=
  usage ++
    ("\n" ++
      "Interactive calculator for arbitrarily large integers with variables.\n" ++
      "\n" ++
      "options:\n" ++
      "  -h, --help            show this help message and exit\n" ++
      "  -e EXPRESSION, --expression EXPRESSION\n" ++
      "                        Evaluate this line and exit instead of starting the\n" ++
      "                        REPL (repeatable, in order).\n" ++
      "  --prompt PROMPT       Prompt string (default: '> ').\n" ++
      "  --log-level LOG_LEVEL\n" ++
      "                        Logging level (default: WARNING).\n" ++
      "  --history-file HISTORY_FILE\n" ++
      "                        Keep input history in this file.\n" ++
      "  --banner              Print a short banner before the first prompt.\n").toList

/-- How a run ends and what it wrote. -/
structure Result where
  code : Nat
  output : Text
  error : Text
  deriving DecidableEq, Repr

def Result.ofMisuse (misuse : Misuse) : Result :=
  ⟨2, [], usage ++ "smartcalc: error: ".toList ++ misuse.message ++ ['\n']⟩

def Result.ofHelp : Result :=
  ⟨0, help, []⟩

def violationHeadline (count : Nat) : Text :=
  s!"Invalid settings: {count} validation error".toList ++
    (if count = 1 then [] else ['s']) ++ " for Settings\n".toList

/-- The end of a run whose settings violate their rules. -/
def Result.ofViolations (violations : List (Settings.Field × Settings.Violation)) : Result :=
  ⟨2, [], violationHeadline violations.length⟩

def started (settings : Settings) : Log.Record :=
  ⟨.shell, .info, "Starting smartcalc with settings: " ++ settings.describe⟩

/-- The end of a run in which the given events happened. -/
def Result.ofEvents (settings : Settings) (events : List Shell.Event) : Result :=
  let threshold := settings.threshold.rank
  ⟨0, events.flatMap Shell.Event.output, events.flatMap (Shell.Event.error threshold)⟩

/-- Do what a request asks for under the given settings. -/
def perform (settings : Settings) (request : Request) (input : Text) :
    Except Fault Shell.Run :=
  let run :=
    if request.lines.isEmpty then
      Shell.run settings .empty (input.lines.map .line)
    else Shell.answerAll settings .empty request.lines
  run.map (.after [.record (started settings)])

/-- The settings and the request of a command line, or the end of a run that is
over before anything is answered. -/
def prepare (arguments : List Text) (environment : Settings.Environment) :
    Except Result (Settings × Request) :=
  match Request.ofTexts arguments with
  | .error misuse => .error (.ofMisuse misuse)
  | .ok none => .error .ofHelp
  | .ok (some request) =>
      match Settings.fromEnvironment environment request.overrides with
      | .error violations => .error (.ofViolations violations)
      | .ok settings => .ok (settings, request)

def run (arguments : List Text) (environment : Settings.Environment) (input : Text) :
    Except Fault Result :=
  match prepare arguments environment with
  | .error result => .ok result
  | .ok (settings, request) =>
      (perform settings request input).map fun run => .ofEvents settings run.events

end Calculator.CommandLine
