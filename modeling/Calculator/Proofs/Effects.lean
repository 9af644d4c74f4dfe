import Calculator.Proofs.Classification
import Calculator.Proofs.Defects

/-! # What answering a line can do

Every line is answered, and the answer has one of a few effects: it shows a
number, a refusal or a failed calculation, it ends or helps, or it binds a name.
Only the last changes the table, and only a failed calculation is recorded as an
error.
-/

namespace Calculator

/-- Records that say no more than what was done. -/
def Log.Quiet (records : List Record) : Prop :=
  ∀ record ∈ records, record.level = .debug

namespace Log

theorem Quiet.append {first second : List Record} (hfirst : Quiet first)
    (hsecond : Quiet second) : Quiet (first ++ second) := by
  intro record hrecord
  rcases List.mem_append.mp hrecord with hmem | hmem
  · exact hfirst record hmem
  · exact hsecond record hmem

theorem quiet_nil : Quiet [] :=
  List.forall_mem_nil _

theorem quiet_singleton {record : Record} (hlevel : record.level = .debug) : Quiet [record] :=
  List.forall_mem_singleton.mpr hlevel

end Log

open Log

theorem Signs.quiet_records (text : Text) : Quiet (records text) := by
  rw [records]
  by_cases hsettled : normalize text = text
  · simp only [if_pos hsettled, quiet_nil]
  · simp only [if_neg hsettled]
    exact quiet_singleton rfl

theorem Statement.quiet_records (text : Text) : Quiet (records text) := by
  unfold records
  split
  · exact quiet_nil
  · exact quiet_singleton rfl

theorem Postfix.level_conversionRecord (text : Text) : (conversionRecord text).level = .debug := by
  unfold conversionRecord
  split <;> rfl

namespace Session

/-- What the answer to a text without blanks and redundant signs does. -/
inductive Effect (table : Variables) (text : Text) : Reply → Prop where
  | done {status : Status} {log : List Record} (hstatus : status = .exit ∨ status = .command)
      (hlog : Quiet log) : Effect table text ⟨.silent status, table, log⟩
  | shown {status : Status} {log : List Record} (value : Int)
      (hstatus : status = .ok ∨ status = .proceed) (hlog : Quiet log) :
      Effect table text ⟨.number status value, table, log⟩
  | refused {log : List Record} (why : Refusal) (hlog : Quiet log) :
      Effect table text ⟨.refusal why, table, log⟩
  | failed {log : List Record} {record : Record} (message : String) (hlog : Quiet log)
      (hlevel : record.level = .error) :
      Effect table text ⟨.failure message, table, log ++ [record]⟩
  | bound {name : Text} {value : Int} {log : List Record}
      (hassigns : Assignment.Assigns table text name value) (hlog : Quiet log) :
      Effect table text ⟨.silent .assignment, table.bind name value, log⟩

variable {table : Variables} {text : Text}

/-- Quiet records in front of an answer add nothing to its effect. -/
theorem Effect.after {records : List Record} {reply : Reply} (h : Effect table text reply)
    (hrecords : Quiet records) : Effect table text (reply.after records) := by
  cases h with
  | done hstatus hlog => exact .done hstatus (hrecords.append hlog)
  | shown value hstatus hlog => exact .shown value hstatus (hrecords.append hlog)
  | refused why hlog => exact .refused why (hrecords.append hlog)
  | @failed log record message hlog hlevel =>
      -- the error stays the last record
      rw [Reply.after, ← List.append_assoc]
      exact .failed message (hrecords.append hlog) hlevel
  | bound hassigns hlog => exact .bound hassigns (hrecords.append hlog)

/-- A value, a fault of the input and a defect all have an answer. -/
theorem exists_replyToValue (text stream : Text) {result : Except Fault Int}
    (hends : ((∃ value, result = .ok value) ∨
        ∃ fault, result = .error fault ∧ fault.IsOfInput table) ∨
      ∃ defect, result = .error (.malformed defect)) :
    ∃ reply, replyToValue table text stream result = .ok reply ∧ Effect table text reply := by
  rcases hends with (⟨value, rfl⟩ | ⟨_, rfl, rfl | ⟨name, rfl, _⟩⟩) | ⟨defect, rfl⟩
  · exact ⟨_, rfl, .shown value (Or.inl rfl) quiet_nil⟩
  · exact ⟨_, rfl, .failed _ quiet_nil rfl⟩
  · exact ⟨_, rfl, .refused _ (quiet_singleton rfl)⟩
  · exact ⟨_, rfl, .failed _ quiet_nil rfl⟩

/-- An expression has an answer, because all its operands are numbers and names. -/
theorem exists_calculate (hclassify : Statement.classify table text = .ok .expression) :
    ∃ reply, calculate table text = .ok reply ∧ Effect table text reply := by
  have hquiet := quiet_singleton (Postfix.level_conversionRecord text)
  cases hconverted : Postfix.ofInfix text with
  | error obstacle =>
      refine ⟨_, by rw [calculate, hconverted]; rfl, ?_⟩
      exact Effect.after (.refused .invalidExpression quiet_nil) hquiet
  | ok items =>
      have hatomic := Postfix.isAtomic_of_ofInfix
        (Statement.completedBy_of_classify hclassify) hconverted
      obtain ⟨reply, hreply, heffect⟩ := exists_replyToValue text (Postfix.write items)
        (Postfix.evaluate_trichotomy table hatomic)
      rw [calculate_of_ofInfix table hconverted, hreply]
      exact ⟨_, rfl, heffect.after hquiet⟩

/-- A text that assigns a value to a name is carried out as that binding. -/
theorem assign_of_assigns {name : Text} {value : Int}
    (hassigns : Assignment.Assigns table text name value) :
    ∃ log, assign table text = .ok ⟨.silent .assignment, table.bind name value, log⟩ ∧
      Quiet log := by
  obtain ⟨source, rfl, htarget, hsupplies⟩ := hassigns
  have hsplit := Assignment.split?_append_equals_cons source
    (Assignment.equals_not_mem_of_mem_letters htarget)
  have hvalue := hsupplies.sourceValue?_eq
  refine ⟨_, by rw [assign, Assignment.perform, hsplit]; simp only [hvalue]; rfl, ?_⟩
  exact quiet_singleton rfl

/-- An assignment binds its target, unless its source is a name without a value. -/
theorem exists_assign (hclassify : Statement.classify table text = .ok .assignment) :
    ∃ reply, assign table text = .ok reply ∧ Effect table text reply := by
  obtain ⟨target, source, rfl, htarget, hsource⟩ :=
    Statement.classify_eq_assignment_iff.mp hclassify
  cases hvalue : Assignment.sourceValue? table source with
  | none =>
      have hsplit := Assignment.split?_append_equals_cons source
        (Assignment.equals_not_mem_of_mem_letters htarget)
      refine ⟨_, by rw [assign, Assignment.perform, hsplit]; simp only [hvalue]; rfl, ?_⟩
      exact .refused .unknownVariable (quiet_singleton rfl)
  | some value =>
      have hassigns : Assignment.Assigns table (target ++ '=' :: source) target value :=
        ⟨source, rfl, htarget, Assignment.supplies_of_sourceValue? hsource hvalue⟩
      obtain ⟨log, hassign, hquiet⟩ := assign_of_assigns hassigns
      exact ⟨_, hassign, .bound hassigns hquiet⟩

theorem exists_answer {statement : Statement}
    (hclassify : Statement.classify table text = .ok statement) :
    ∃ reply, answer table text statement = .ok reply ∧ Effect table text reply := by
  cases statement with
  | refused why => exact ⟨_, rfl, .refused why quiet_nil⟩
  | exit => exact ⟨_, rfl, .done (Or.inl rfl) quiet_nil⟩
  | help => exact ⟨_, rfl, .done (Or.inr rfl) quiet_nil⟩
  | assignment => exact exists_assign hclassify
  | operand value => exact ⟨_, rfl, .shown value (Or.inr rfl) quiet_nil⟩
  | expression => exact exists_calculate hclassify

theorem Reply.after_after (first second : List Record) (reply : Reply) :
    (reply.after second).after first = reply.after (first ++ second) := by
  simp [Reply.after]

/-- The answer to a line is the answer to its statement, behind quiet records. -/
theorem process_eq_map_answer {line : Text} {statement : Statement} (hline : line.squeeze ≠ [])
    (hclassify : Statement.classify table (Signs.normalize line.squeeze) = .ok statement) :
    ∃ records, Quiet records ∧
      process table line =
        (answer table (Signs.normalize line.squeeze) statement).map (.after records) := by
  have hclassified : Quiet [classified (Signs.normalize line.squeeze) statement] :=
    quiet_singleton rfl
  have hquiet := (Statement.quiet_records (Signs.normalize line.squeeze)).append hclassified
  refine ⟨_, (Signs.quiet_records line.squeeze).append hquiet, ?_⟩
  rw [process, if_neg (by simpa using hline), processNormal, hclassify, Except.bind, map_map]
  simp only [Reply.after_after]

/-- Every line is answered. A line of blanks is passed over, and the answer to any
other has one of the effects. -/
theorem exists_process (table : Variables) (line : Text) :
    ∃ reply, process table line = .ok reply ∧
      ((line.squeeze = [] ∧ reply = .keep table (.silent .proceed)) ∨
        (line.squeeze ≠ [] ∧ Effect table (Signs.normalize line.squeeze) reply)) := by
  by_cases hline : line.squeeze = []
  · refine ⟨_, ?_, Or.inl ⟨hline, rfl⟩⟩
    simp [process, hline]
  · obtain ⟨statement, hclassify⟩ := Statement.exists_classify table (Signs.normalize line.squeeze)
    obtain ⟨records, hquiet, hprocess⟩ := process_eq_map_answer hline hclassify
    obtain ⟨reply, hreply, heffect⟩ := exists_answer hclassify
    rw [hreply] at hprocess
    exact ⟨reply.after records, hprocess, Or.inr ⟨hline, heffect.after hquiet⟩⟩

theorem effect_of_process {line : Text} {reply : Reply} (hreply : process table line = .ok reply) :
    reply = .keep table (.silent .proceed) ∨ Effect table (Signs.normalize line.squeeze) reply := by
  obtain ⟨found, hfound, hends⟩ := exists_process table line
  obtain rfl : found = reply := Except.ok.inj (hfound.symm.trans hreply)
  exact hends.imp And.right And.right

end Session

end Calculator
