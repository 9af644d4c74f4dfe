import Calculator.CommandLine.Run
import Calculator.Proofs.Bindings

/-! # What the shells say

One shell reads lines, the other is given them; both have a session answer line after
line, up to one that asks for the exit. What is said, and the table in the end, follow
from the part of the script that is heard and from the replies to its lines.
-/

namespace Calculator

namespace Shell

open Session

def Read.text? : Read → Option Text
  | .line text => some text
  | .interrupt => none

def Event.asked? : Event → Option Text
  | .ask prompt => some prompt
  | _ => none

def Event.printed? : Event → Option Text
  | .print line => some line
  | _ => none

def Event.complained? : Event → Option Text
  | .complain line => some line
  | _ => none

def Event.recorded? : Event → Option Log.Record
  | .record written => some written
  | _ => none

/-- What is printed about the outcome of a line, other than the farewell: the help for
a command, and the text of an outcome that is no failure. -/
def told (outcome : Outcome) : List Text :=
  (if outcome.status = .command then [help] else []) ++
    if outcome.internal then [] else outcome.output.toList

/-- What is complained about the outcome of a line: the text of a failure. -/
def complaints (outcome : Outcome) : List Text :=
  if outcome.internal then outcome.output.toList else []

/-- What is printed between the banner and the farewell: something for every interrupt,
and what is told about the outcome of every line. -/
def conversation : List Read → List Outcome → List Text
  | .interrupt :: reads, outcomes => "^C".toList :: conversation reads outcomes
  | .line _ :: reads, outcome :: outcomes => told outcome ++ conversation reads outcomes
  | _, _ => []

/-- What is said in some events, each kind of event by itself. -/
structure Tells (events : List Event) (asked printed complained : List Text)
    (recorded : List Log.Record) : Prop where
  asked_eq : events.filterMap Event.asked? = asked
  printed_eq : events.filterMap Event.printed? = printed
  complained_eq : events.filterMap Event.complained? = complained
  recorded_eq : events.filterMap Event.recorded? = recorded

theorem Tells.append {first second : List Event} {asked asked' printed printed' : List Text}
    {complained complained' : List Text} {recorded recorded' : List Log.Record}
    (hfirst : Tells first asked printed complained recorded)
    (hsecond : Tells second asked' printed' complained' recorded') :
    Tells (first ++ second) (asked ++ asked') (printed ++ printed') (complained ++ complained')
      (recorded ++ recorded') where
  asked_eq := by rw [List.filterMap_append, hfirst.asked_eq, hsecond.asked_eq]
  printed_eq := by rw [List.filterMap_append, hfirst.printed_eq, hsecond.printed_eq]
  complained_eq := by rw [List.filterMap_append, hfirst.complained_eq, hsecond.complained_eq]
  recorded_eq := by rw [List.filterMap_append, hfirst.recorded_eq, hsecond.recorded_eq]

theorem tells_ask (prompt : Text) : Tells [.ask prompt] [prompt] [] [] [] :=
  ⟨rfl, rfl, rfl, rfl⟩

theorem tells_print (line : Text) : Tells [.print line] [] [line] [] [] :=
  ⟨rfl, rfl, rfl, rfl⟩

theorem tells_records (records : List Log.Record) :
    Tells (records.map .record) [] [] [] records := by
  constructor
  · exact List.filterMap_eq_nil_iff.mpr (by simp [Event.asked?])
  · exact List.filterMap_eq_nil_iff.mpr (by simp [Event.printed?])
  · exact List.filterMap_eq_nil_iff.mpr (by simp [Event.complained?])
  · rw [List.filterMap_map]
    change List.filterMap some records = records
    exact List.filterMap_some

/-- The exit message, if the exit was asked for. -/
def farewell (settings : Settings) (exited : Bool) : List Text :=
  if exited then [settings.exitMessage] else []

variable {table : Variables} {text : Text} {reply : Reply}

/-- An outcome with the status of an exit or of a command has no text of its own. -/
theorem tells_shown (settings : Settings) (hreply : process table text = .ok reply) :
    Tells (shown settings reply.outcome) []
      (told reply.outcome ++ farewell settings (reply.outcome.status = .exit))
      (complaints reply.outcome) [] := by
  rcases effect_of_process hreply with rfl | heffect
  · exact ⟨rfl, rfl, rfl, rfl⟩
  · cases heffect with
    | done hstatus => rcases hstatus with rfl | rfl <;> exact ⟨rfl, rfl, rfl, rfl⟩
    | shown value hstatus => rcases hstatus with rfl | rfl <;> exact ⟨rfl, rfl, rfl, rfl⟩
    | refused | failed | bound => exact ⟨rfl, rfl, rfl, rfl⟩

theorem tells_eventsOf (settings : Settings) (hreply : process table text = .ok reply) :
    Tells (eventsOf settings reply) []
      (told reply.outcome ++ farewell settings (reply.outcome.status = .exit))
      (complaints reply.outcome) reply.log := by
  have htells := (tells_records reply.log).append (tells_shown settings hreply)
  rw [eventsOf]
  simpa only [List.append_nil, List.nil_append] using htells

theorem tells_of_exit (settings : Settings) (hreply : process table text = .ok reply)
    (hexit : reply.outcome.status = .exit) :
    Tells (eventsOf settings reply) [] (told reply.outcome ++ [settings.exitMessage])
      (complaints reply.outcome) reply.log := by
  have htells := tells_eventsOf settings hreply
  rw [decide_eq_true hexit] at htells
  exact htells

theorem tells_of_stays (settings : Settings) (hreply : process table text = .ok reply)
    (hstays : reply.outcome.status ≠ .exit) :
    Tells (eventsOf settings reply) [] (told reply.outcome) (complaints reply.outcome)
      reply.log := by
  have htells := tells_eventsOf settings hreply
  rw [decide_eq_false hstays] at htells
  simpa only [farewell, Bool.false_eq_true, if_false, List.append_nil] using htells

section Steps

variable (settings : Settings) (rest : List Read) (others : List (Option Text))

theorem turn_line (hreply : process table text = .ok reply) :
    turn settings table (some (.line text)) =
      .ok ⟨eventsOf settings reply, reply.table, reply.outcome.status = .exit⟩ := by
  rw [turn, hreply]
  rfl

theorem converse_interrupt :
    converse settings table (.interrupt :: rest) =
      (converse settings table rest).map (.after [.ask settings.prompt, .print "^C".toList]) :=
  rfl

theorem converse_line (hreply : process table text = .ok reply) :
    converse settings table (.line text :: rest) =
      if reply.outcome.status = .exit then
        .ok ⟨.ask settings.prompt :: eventsOf settings reply, reply.table⟩
      else
        (converse settings reply.table rest).map
          (.after (.ask settings.prompt :: eventsOf settings reply)) := by
  rw [converse, turn_line settings hreply, Except.bind]
  simp only [decide_eq_true_eq]

theorem answerAll_cons (hreply : process table text = .ok reply) :
    answerAll settings table (some text :: others) =
      if reply.outcome.status = .exit then .ok ⟨eventsOf settings reply, reply.table⟩
      else (answerAll settings reply.table others).map (.after (eventsOf settings reply)) := by
  rw [answerAll, answerGiven, turn_line settings hreply, Except.bind]
  simp only [decide_eq_true_eq]

end Steps

/-- How a script is gone through, read by read: the part of it that is read, the replies
to its lines, and whether the last of them asked for the exit. -/
inductive Exchange : Variables → List Read → List Read → List Reply → Bool → Prop where
  | ended (table : Variables) : Exchange table [] [] [] false
  | interrupted {table : Variables} {rest heard : List Read} {answers : List Reply}
      {exited : Bool} (hrest : Exchange table rest heard answers exited) :
      Exchange table (.interrupt :: rest) (.interrupt :: heard) answers exited
  | exited {table : Variables} {text : Text} {reply : Reply} (rest : List Read)
      (hreply : process table text = .ok reply) (hexit : reply.outcome.status = .exit) :
      Exchange table (.line text :: rest) [.line text] [reply] true
  | answered {table : Variables} {text : Text} {reply : Reply} {rest heard : List Read}
      {answers : List Reply} {exited : Bool} (hreply : process table text = .ok reply)
      (hstays : reply.outcome.status ≠ .exit)
      (hrest : Exchange reply.table rest heard answers exited) :
      Exchange table (.line text :: rest) (.line text :: heard) (reply :: answers) exited

theorem exists_exchange (table : Variables) (script : List Read) :
    ∃ heard answers exited, Exchange table script heard answers exited := by
  induction script generalizing table with
  | nil => exact ⟨[], [], false, .ended table⟩
  | cons read rest ih =>
      cases read with
      | interrupt =>
          obtain ⟨heard, answers, exited, hrest⟩ := ih table
          exact ⟨_, _, _, .interrupted hrest⟩
      | line text =>
          obtain ⟨reply, hreply, _⟩ := exists_process table text
          by_cases hexit : reply.outcome.status = .exit
          · exact ⟨_, _, _, .exited rest hreply hexit⟩
          · obtain ⟨heard, answers, exited, hrest⟩ := ih reply.table
            exact ⟨_, _, _, .answered hreply hexit hrest⟩

/-- What of a script is heard: all of it, if no line asks for the exit, and otherwise
everything up to and including the first line that does. The replies are those of a
session to the lines that are heard. -/
inductive Heard (table : Variables) : List Read → List Read → List Reply → Bool → Prop where
  | whole {script : List Read} {answers : List Reply}
      (hanswers : replies table (script.filterMap Read.text?) = .ok answers)
      (hstays : ∀ reply ∈ answers, reply.outcome.status ≠ .exit) :
      Heard table script script answers false
  | upTo (before rest : List Read) (text : Text) (earlier : List Reply) {reply : Reply}
      (hanswers : replies table ((before ++ [Read.line text]).filterMap Read.text?) =
        .ok (earlier ++ [reply]))
      (hstays : ∀ reply ∈ earlier, reply.outcome.status ≠ .exit)
      (hexit : reply.outcome.status = .exit) :
      Heard table (before ++ .line text :: rest) (before ++ [.line text]) (earlier ++ [reply]) true

namespace Exchange

variable {script heard : List Read} {answers : List Reply} {exited : Bool}

theorem toHeard (h : Exchange table script heard answers exited) :
    Heard table script heard answers exited := by
  -- a read in front of the others is heard whichever way the others end
  induction h with
  | ended table => exact .whole rfl nofun
  | interrupted hrest ih =>
      cases ih with
      | whole hanswers hstays => exact .whole hanswers hstays
      | upTo before rest text earlier hanswers hstays hexit =>
          exact .upTo (.interrupt :: before) rest text earlier hanswers hstays hexit
  | @exited table text reply rest hreply hexit =>
      exact .upTo [] rest text [] (replies_cons hreply rfl) nofun hexit
  | @answered table text reply rest heard answers exited hreply hstays hrest ih =>
      cases ih with
      | whole hanswers hothers =>
          exact .whole (replies_cons hreply hanswers) (List.forall_mem_cons.mpr ⟨hstays, hothers⟩)
      | upTo before rest last earlier hanswers hothers hexit =>
          exact .upTo (.line text :: before) rest last (reply :: earlier)
            (replies_cons hreply hanswers)
            (List.forall_mem_cons.mpr ⟨hstays, hothers⟩) hexit

/-- The shell that reads goes through a script and prints the exit message in the end. -/
theorem exists_converse (settings : Settings) (h : Exchange table script heard answers exited) :
    ∃ run, converse settings table script = .ok run ∧
      Tells run.events
        (List.replicate (heard.length + if exited then 0 else 1) settings.prompt)
        (conversation heard (answers.map Reply.outcome) ++ [settings.exitMessage])
        ((answers.map Reply.outcome).flatMap complaints) (answers.flatMap Reply.log) ∧
      run.table = (answers.map Reply.table).getLastD table := by
  -- the shell asks once more than it hears, unless a line asked for the exit
  induction h with
  | ended table => exact ⟨_, rfl, ⟨rfl, rfl, rfl, rfl⟩, rfl⟩
  | @interrupted table rest heard answers exited hrest ih =>
      obtain ⟨run, hrun, htells, htable⟩ := ih
      have hturn := (tells_ask settings.prompt).append (tells_print "^C".toList)
      refine ⟨run.after [.ask settings.prompt, .print "^C".toList], ?_, ?_, htable⟩
      · rw [converse_interrupt, hrun]
        rfl
      · rw [List.length_cons, Nat.add_right_comm, List.replicate_succ]
        exact hturn.append htells
  | @exited table text reply rest hreply hexit =>
      have htells := (tells_ask settings.prompt).append (tells_of_exit settings hreply hexit)
      refine ⟨⟨.ask settings.prompt :: eventsOf settings reply, reply.table⟩, ?_, ?_, ?_⟩
      · rw [converse_line settings rest hreply, if_pos hexit]
      · simpa [conversation] using htells
      · rfl
  | @answered table text reply rest heard answers exited hreply hstays hrest ih =>
      obtain ⟨run, hrun, htells, htable⟩ := ih
      have hturn := (tells_ask settings.prompt).append (tells_of_stays settings hreply hstays)
      refine ⟨run.after (.ask settings.prompt :: eventsOf settings reply), ?_, ?_, ?_⟩
      · rw [converse_line settings rest hreply, if_neg hstays, hrun]
        rfl
      · rw [List.length_cons, Nat.add_right_comm, List.replicate_succ, List.map_cons, conversation,
          List.append_assoc]
        exact hturn.append htells
      · rw [List.map_cons, List.getLastD_cons]
        exact htable

/-- The shell that is given lines goes through them as if it read them, and prints the
exit message only if it was asked for the exit. -/
theorem exists_answerAll (settings : Settings) {lines : List Text}
    (h : Exchange table script heard answers exited) (hscript : script = lines.map .line) :
    ∃ run, answerAll settings table (lines.map some) = .ok run ∧
      Tells run.events []
        (conversation heard (answers.map Reply.outcome) ++ farewell settings exited)
        ((answers.map Reply.outcome).flatMap complaints) (answers.flatMap Reply.log) ∧
      run.table = (answers.map Reply.table).getLastD table := by
  induction h generalizing lines with
  | ended table =>
      obtain rfl : lines = [] := List.map_eq_nil_iff.mp hscript.symm
      exact ⟨_, rfl, ⟨rfl, rfl, rfl, rfl⟩, rfl⟩
  | interrupted hrest =>
      -- lines that are given hold no interrupt
      cases lines <;> cases hscript
  | @exited table text reply rest hreply hexit =>
      obtain ⟨_, others, rfl, hline, hrest⟩ := List.map_eq_cons_iff.mp hscript.symm
      cases hline
      have htells := tells_of_exit settings hreply hexit
      refine ⟨⟨eventsOf settings reply, reply.table⟩, ?_, ?_, ?_⟩
      · rw [List.map_cons, answerAll_cons settings (others.map some) hreply, if_pos hexit]
      · simpa [conversation, farewell] using htells
      · rfl
  | @answered table text reply rest heard answers exited hreply hstays hrest ih =>
      obtain ⟨_, others, rfl, hline, hothers⟩ := List.map_eq_cons_iff.mp hscript.symm
      cases hline
      obtain ⟨run, hrun, htells, htable⟩ := ih hothers.symm
      refine ⟨run.after (eventsOf settings reply), ?_, ?_, ?_⟩
      · rw [List.map_cons, answerAll_cons settings (others.map some) hreply, if_neg hstays, hrun]
        rfl
      · rw [List.map_cons, conversation, List.append_assoc]
        exact (tells_of_stays settings hreply hstays).append htells
      · rw [List.map_cons, List.getLastD_cons]
        exact htable

/-- A whole run of the shell that reads. -/
theorem exists_run (settings : Settings) (h : Exchange table script heard answers exited) :
    ∃ run, Shell.run settings table script = .ok run ∧
      Tells run.events
        (List.replicate (heard.length + if exited then 0 else 1) settings.prompt)
        ((if settings.showBanner then [banner] else []) ++
          (conversation heard (answers.map Reply.outcome) ++ [settings.exitMessage]))
        ((answers.map Reply.outcome).flatMap complaints) (answers.flatMap Reply.log) ∧
      run.table = (answers.map Reply.table).getLastD table := by
  obtain ⟨talk, htalk, htells, htable⟩ := h.exists_converse settings
  refine ⟨talk.after (opening settings), ?_, ?_, htable⟩
  · rw [run, htalk]
    rfl
  · have hopening : Tells (opening settings) []
        (if settings.showBanner then [banner] else []) [] [] := by
      cases hbanner : settings.showBanner <;> rw [opening, hbanner] <;> exact ⟨rfl, rfl, rfl, rfl⟩
    exact hopening.append htells

end Exchange

theorem Heard.replies_eq {script heard : List Read} {answers : List Reply} {exited : Bool}
    (h : Heard table script heard answers exited) :
    replies table (heard.filterMap Read.text?) = .ok answers := by
  cases h with
  | whole hanswers => exact hanswers
  | upTo before rest text earlier hanswers => exact hanswers

theorem Heard.tableAfter_eq {script heard : List Read} {answers : List Reply} {exited : Bool}
    (h : Heard table script heard answers exited) :
    tableAfter table (heard.filterMap Read.text?) =
      .ok ((answers.map Reply.table).getLastD table) := by
  rw [tableAfter, h.replies_eq]
  rfl

/-- Where nothing is asked, the standard output holds the printed lines. -/
theorem flatMap_output {events : List Event} (hasked : events.filterMap Event.asked? = []) :
    events.flatMap Event.output = (events.filterMap Event.printed?).flatMap (· ++ ['\n']) := by
  induction events with
  | nil => rfl
  | cons event rest ih =>
      cases event with
      | ask prompt => cases hasked
      | print line => exact congrArg _ (ih hasked)
      | complain line => exact ih hasked
      | record written => exact ih hasked

/-- Apart from the records the standard error holds the complaints. -/
theorem flatMap_error (threshold : Nat) (events : List Event) :
    (events.filter (·.recorded?.isNone)).flatMap (Event.error threshold) =
      (events.filterMap Event.complained?).flatMap (· ++ ['\n']) := by
  induction events with
  | nil => rfl
  | cons event rest ih =>
      cases event with
      | ask prompt => exact ih
      | print line => exact ih
      | complain line => exact congrArg _ ih
      | record written => exact ih

/-- A command line with lines to answer has them answered in a run of the program. -/
theorem exists_perform {settings : Settings} {request : CommandLine.Request} {lines : List Text}
    {heard : List Read} {answers : List Reply} {exited : Bool}
    (h : Exchange .empty (lines.map .line) heard answers exited)
    (hlines : request.lines = lines.map some) (hne : lines ≠ []) (input : Text) :
    ∃ run, CommandLine.perform settings request input = .ok run ∧
      Tells run.events [] (conversation heard (answers.map Reply.outcome) ++
          farewell settings exited)
        ((answers.map Reply.outcome).flatMap complaints)
        (CommandLine.started settings :: answers.flatMap Reply.log) ∧
      run.table = (answers.map Reply.table).getLastD .empty := by
  obtain ⟨given, hgiven, htells, htable⟩ := h.exists_answerAll settings rfl
  refine ⟨given.after [.record (CommandLine.started settings)], ?_, ?_, htable⟩
  · have hempty : request.lines.isEmpty = false := by
      rw [hlines, List.isEmpty_map, List.isEmpty_eq_false_iff]
      exact hne
    rw [CommandLine.perform, hempty, hlines, hgiven]
    rfl
  · exact (tells_records [CommandLine.started settings]).append htells

/-- Both shells follow the replies of a session. The shell that reads asks for every
line with its prompt and stops at the first that asks for the exit, or at the end of
the input; it prints the banner, then for every read what the reply shows, and last the
exit message, and it complains about failures only. A command line with lines to answer
hears the same part of them as the shell that reads them; without banner and prompts it
prints and complains the same, but the exit message only if it was asked for the exit,
and its code is zero. -/
theorem runs_follow_replies :
    (∀ (settings : Settings) (table : Variables) (script : List Read),
      ∃ heard answers exited run, Heard table script heard answers exited ∧
        Shell.run settings table script = .ok run ∧
        Tells run.events
          (List.replicate (heard.length + if exited then 0 else 1) settings.prompt)
          ((if settings.showBanner then [banner] else []) ++
            (conversation heard (answers.map Reply.outcome) ++ [settings.exitMessage]))
          ((answers.map Reply.outcome).flatMap complaints) (answers.flatMap Reply.log) ∧
        tableAfter table (heard.filterMap Read.text?) = .ok run.table) ∧
    ∀ arguments environment input settings request lines,
      CommandLine.prepare arguments environment = .ok (settings, request) →
      request.lines = lines.map some → lines ≠ [] →
      ∃ heard answers exited talk given,
        Heard .empty (lines.map .line) heard answers exited ∧
        Shell.run { settings with showBanner := false } .empty (lines.map .line) = .ok talk ∧
        Tells talk.events
          (List.replicate (heard.length + if exited then 0 else 1) settings.prompt)
          (conversation heard (answers.map Reply.outcome) ++ [settings.exitMessage])
          ((answers.map Reply.outcome).flatMap complaints) (answers.flatMap Reply.log) ∧
        CommandLine.perform settings request input = .ok given ∧
        Tells given.events []
          (conversation heard (answers.map Reply.outcome) ++ farewell settings exited)
          ((answers.map Reply.outcome).flatMap complaints)
          (CommandLine.started settings :: answers.flatMap Reply.log) ∧
        given.table = talk.table ∧
        ∃ result, CommandLine.run arguments environment input = .ok result ∧ result.code = 0 ∧
          result.output =
            (conversation heard (answers.map Reply.outcome) ++ farewell settings exited).flatMap
              (· ++ ['\n']) ∧
          result.error = given.events.flatMap (Event.error settings.threshold.rank) ∧
          (given.events.filter (·.recorded?.isNone)).flatMap
              (Event.error settings.threshold.rank) =
            ((answers.map Reply.outcome).flatMap complaints).flatMap (· ++ ['\n']) := by
  constructor
  · intro settings table script
    obtain ⟨heard, answers, exited, hexchange⟩ := exists_exchange table script
    obtain ⟨run, hrun, htells, htable⟩ := hexchange.exists_run settings
    refine ⟨heard, answers, exited, run, hexchange.toHeard, hrun, htells, ?_⟩
    rw [htable]
    exact hexchange.toHeard.tableAfter_eq
  · intro arguments environment input settings request lines hprepare hlines hne
    obtain ⟨heard, answers, exited, hexchange⟩ := exists_exchange .empty (lines.map .line)
    obtain ⟨talk, htalk, htold, htable⟩ :=
      hexchange.exists_run { settings with showBanner := false }
    obtain ⟨given, hgiven, hsaid, hend⟩ := exists_perform hexchange hlines hne input
    refine ⟨heard, answers, exited, talk, given, hexchange.toHeard, htalk, htold, hgiven, hsaid,
      hend.trans htable.symm, .ofEvents settings given.events, ?_, rfl, ?_, rfl, ?_⟩
    · rw [CommandLine.run, hprepare]
      simp only [hgiven]
      rfl
    · rw [← hsaid.printed_eq]
      exact flatMap_output hsaid.asked_eq
    · rw [flatMap_error, hsaid.complained_eq]

/-- Of four lines the last is not heard, since the third asks for the exit. -/
theorem runs_follow_replies_until_exit :
    ∃ heard answers exited result,
      Heard .empty (["x = 6", "x * 7", "/exit", "1"].map fun line => .line line.toList) heard
        answers exited ∧
      CommandLine.run
        (["-e", "x = 6", "-e", "x * 7", "-e", "/exit", "-e", "1"].map String.toList) [] [] =
          .ok result ∧
      result.code = 0 ∧ result.output = "42\nBye!\n".toList ∧
      result.output =
        (conversation heard (answers.map Reply.outcome) ++
          farewell Settings.default exited).flatMap (· ++ ['\n']) := by
  have hprepared : (CommandLine.prepare
      (["-e", "x = 6", "-e", "x * 7", "-e", "/exit", "-e", "1"].map String.toList) []).map
        (fun found => (found.1, found.2.lines)) =
      .ok (Settings.default, ["x = 6", "x * 7", "/exit", "1"].map fun line => some line.toList) := by
    decide +kernel
  have hshown : (CommandLine.run
      (["-e", "x = 6", "-e", "x * 7", "-e", "/exit", "-e", "1"].map String.toList) [] []).map
        CommandLine.Result.output = .ok "42\nBye!\n".toList := by
    decide +kernel
  obtain ⟨⟨settings, request⟩, hprepare, hfound⟩ := map_eq_ok_iff.mp hprepared
  obtain ⟨rfl, hlines⟩ := Prod.mk.inj hfound
  obtain ⟨heard, answers, exited, _, _, hheard, _, _, _, _, _, result, hrun, hcode, houtput, _⟩ :=
    runs_follow_replies.2 _ [] [] _ request
      (["x = 6", "x * 7", "/exit", "1"].map String.toList) hprepare hlines (List.cons_ne_nil _ _)
  rw [hrun] at hshown
  exact ⟨heard, answers, exited, result, hheard, hrun, hcode, Except.ok.inj hshown, houtput⟩

end Shell

end Calculator
