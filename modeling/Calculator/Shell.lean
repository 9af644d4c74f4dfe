import Calculator.Session
import Calculator.Settings.Basic

/-!
# The shell

The shell reads lines, has a session answer each of them and shows the answers,
until a line asks for the exit or the input ends. What happens is a sequence of
events; printing them is left to whoever runs the shell.
-/

namespace Calculator.Shell

def banner : Text :=
  "smartcalc - integer calculator with variables. Type /help for help, /exit to quit.".toList

def help : Text :=
  ("The program handles basic calculator operations on integers of any size.\n\n" ++
    "COMMANDS\n" ++
    "    /help\n" ++
    "        prints this help\n" ++
    "    /exit\n" ++
    "        ends the program\n\n" ++
    "Type an expression built from numbers, variables and the SUPPORTED OPERATORS\n" ++
    "and press ENTER to get the result. Spaces are ignored.\n\n" ++
    "Declare variables with '=', e.g. 'count = 50' or 'other = count', then use\n" ++
    "them in expressions or show their value by typing the name on its own.\n" ++
    "Variable names are made of Latin letters only and are case-sensitive.\n\n" ++
    "SUPPORTED OPERATORS\n" ++
    "    +   addition\n" ++
    "    -   subtraction and negation\n" ++
    "    *   multiplication\n" ++
    "    /   integer division, rounding toward zero\n" ++
    "    ()  parentheses\n\n" ++
    "Repeated signs are collapsed: '2 -- 3' is '2 + 3', '2 --- 3' is '2 - 3'.\n\n" ++
    "EXAMPLES ('>' marks user input):\n" ++
    "> a = 5\n" ++
    "> b = 3\n" ++
    "> b\n" ++
    "3\n" ++
    "> (a + 5) * b / 3 + (4*5+b)\n" ++
    "33\n" ++
    "> /exit\n" ++
    "Bye!").toList

/-- What the shell does that can be seen from outside. -/
inductive Event where
  | ask (prompt : Text)
  | print (line : Text)
  | complain (line : Text)
  | record (record : Log.Record)
  deriving DecidableEq, Repr

/-- What one read comes to, unless the input has ended. -/
inductive Read where
  | line (text : Text)
  | interrupt
  deriving DecidableEq, Repr

def shown (settings : Settings) (outcome : Outcome) : List Event :=
  match outcome.status, outcome.output with
  | .exit, _ => [.print settings.exitMessage]
  | .command, _ => [.print help]
  | _, none => []
  | _, some line => if outcome.internal then [.complain line] else [.print line]

/-- The events of a reply: its records, then what is shown. -/
def eventsOf (settings : Settings) (reply : Session.Reply) : List Event :=
  reply.log.map .record ++ shown settings reply.outcome

/-- What the shell does about one read: what happens, the table after it, and
whether it is the last. -/
structure Turn where
  events : List Event
  table : Variables
  last : Bool

/-- Answer one read. The end of the input ends the shell, and so does a line
that asks for the exit; an interrupt changes nothing. -/
def turn (settings : Settings) (table : Variables) : Option Read → Except Fault Turn
  | none => .ok ⟨[.print settings.exitMessage], table, true⟩
  | some .interrupt => .ok ⟨[.print "^C".toList], table, false⟩
  | some (.line text) =>
      (Session.process table text).map fun reply =>
        ⟨eventsOf settings reply, reply.table, reply.outcome.status = .exit⟩

/-- A run, or a part of one: what happened and the table after it. -/
structure Run where
  events : List Event
  table : Variables

/-- Events in front of those of a run. -/
def Run.after (events : List Event) (run : Run) : Run :=
  { run with events := events ++ run.events }

/-- Read a script until the shell or the script ends. The end of the script is
the end of the input. -/
def converse (settings : Settings) (table : Variables) : List Read → Except Fault Run
  | [] =>
      (turn settings table none).map fun turn =>
        ⟨.ask settings.prompt :: turn.events, turn.table⟩
  | read :: rest =>
      (turn settings table (some read)).bind fun turn =>
        let events := .ask settings.prompt :: turn.events
        if turn.last then .ok ⟨events, turn.table⟩
        else (converse settings turn.table rest).map (.after events)

def opening (settings : Settings) : List Event :=
  if settings.showBanner then [.print banner] else []

/-- A whole run of the shell over a script. -/
def run (settings : Settings) (table : Variables) (script : List Read) : Except Fault Run :=
  (converse settings table script).map (.after (opening settings))

def answerGiven (settings : Settings) (table : Variables) : Option Text → Except Fault Turn
  | some text => turn settings table (some (.line text))
  | none => .error .missingLine

/-- Answer given lines without reading, up to one that asks for the exit. -/
def answerAll (settings : Settings) (table : Variables) : List (Option Text) → Except Fault Run
  | [] => .ok ⟨[], table⟩
  | line :: rest =>
      (answerGiven settings table line).bind fun turn =>
        if turn.last then .ok ⟨turn.events, turn.table⟩
        else (answerAll settings turn.table rest).map (.after turn.events)

/-- Where the lines typed on a terminal are kept. -/
inductive History where
  | memory
  | file (name : Text)
  deriving DecidableEq, Repr

def history (settings : Settings) : History :=
  match settings.historyFile with
  | some name => .file name
  | none => .memory

/-- What an event adds to the standard output. Prompts stay on their line. -/
def Event.output : Event → Text
  | .ask prompt => prompt
  | .print line => line ++ ['\n']
  | _ => []

/-- What an event adds to the standard error, given the least rank of the
records that are written. -/
def Event.error (threshold : Nat) : Event → Text
  | .complain line => line ++ ['\n']
  | .record written =>
      if written.reaches threshold then (written.line " - ").toList ++ ['\n'] else []
  | _ => []

end Calculator.Shell
