import Calculator.Proofs.Decimals
import Calculator.Proofs.Streams
import Calculator.Session

/-! # What answers show

The outcome of a line follows from its classification. Only an expression has a
calculated value or a failed calculation as its outcome.
-/

namespace Calculator

theorem head?_toList_append {first : String} {c : Char} (hfirst : first.toList.head? = some c)
    (second : String) : (first ++ second).toList.head? = some c := by
  rw [String.toList_append, List.head?_append, hfirst]
  rfl

/-- No diagnostic for a stream begins like the one for a zero divisor. -/
theorem Defect.head?_message (stream : Text) (defect : Defect) :
    ∃ c, (defect.message stream).toList.head? = some c ∧ c ≠ 'd' := by
  cases defect with
  | missingOperands operator =>
      have hn : ("not enough operands for " : String).toList.head? = some 'n' := by decide +kernel
      refine ⟨'n', ?_, by decide⟩
      exact head?_toList_append (head?_toList_append (head?_toList_append hn _) _) _
  | nothingToNegate =>
      have hn : ("nothing to negate in " : String).toList.head? = some 'n' := by decide +kernel
      exact ⟨'n', head?_toList_append hn _, by decide⟩
  | valuesLeft count =>
      obtain ⟨c, rest, hdigits⟩ :=
        List.exists_cons_of_ne_nil (Nat.toDigits_ne_nil (n := count) (b := 10))
      have hc : c.isDigit = true :=
        Nat.isDigit_of_mem_toDigits (by decide) (by decide) (hdigits ▸ List.mem_cons_self)
      have hcount : (toString count).toList.head? = some c := by
        change (Nat.repr count).toList.head? = _
        rw [Nat.toList_repr, hdigits]
        rfl
      refine ⟨c, head?_toList_append (head?_toList_append hcount _) _, ?_⟩
      rintro rfl
      cases hc

theorem Outcome.failure_message_ne (stream : Text) (defect : Defect) :
    failure (defect.message stream) ≠ failure "division by zero" := by
  intro heq
  obtain ⟨c, hhead, hc⟩ := defect.head?_message stream
  have hd : ("division by zero" : String).toList.head? = some 'd' := by decide +kernel
  have htext := Option.some.inj (congrArg Outcome.output heq)
  rw [String.toList_append, String.toList_append] at htext
  rw [List.append_cancel_left htext, hd] at hhead
  exact hc (Option.some.inj hhead).symm

/-- A number is shown as its canonical decimal text. -/
theorem Outcome.exists_number_eq (status : Status) (value : Int) :
    ∃ shown, Numeral.Canonical shown ∧ Numeral.Spells shown value ∧
      number status value = ⟨status, some shown, false⟩ :=
  ⟨_, Numeral.canonical_write value, Numeral.spells_write value, rfl⟩

namespace Session

theorem outcome_after (records : List Log.Record) (reply : Reply) :
    (reply.after records).outcome = reply.outcome :=
  rfl

/-- The outcome of an expression whose stream was evaluated. -/
def outcomeOfValue (stream : Text) : Except Fault Int → Except Fault Outcome
  | .ok value => .ok (.number .ok value)
  | .error (.unbound _) => .ok (.refusal .invalidIdentifier)
  | .error .divisionByZero => .ok (.failure "division by zero")
  | .error (.malformed defect) => .ok (.failure (defect.message stream))
  | .error fault => .error fault

theorem status_ne_ok_of_fault {stream : Text} {fault : Fault} {outcome : Outcome}
    (houtcome : outcomeOfValue stream (.error fault) = .ok outcome) : outcome.status ≠ .ok := by
  cases fault <;> cases houtcome <;> exact nofun

/-- Only a zero divisor and a defect of the stream make the calculation fail, and
what is shown tells which of the two it was. -/
theorem internal_and_ne_iff {stream : Text} {result : Except Fault Int} {outcome : Outcome}
    (houtcome : outcomeOfValue stream result = .ok outcome) :
    outcome.internal = true ∧ outcome ≠ .failure "division by zero" ↔
      ∃ defect, result = .error (.malformed defect) := by
  constructor
  · intro hshown
    obtain ⟨hinternal, hne⟩ := hshown
    cases result with
    | ok value =>
        cases houtcome
        cases hinternal
    | error fault =>
        cases fault with
        | malformed defect => exact ⟨defect, rfl⟩
        | divisionByZero =>
            cases houtcome
            exact absurd rfl hne
        | _ => cases houtcome <;> cases hinternal
  · rintro ⟨defect, rfl⟩
    cases houtcome
    exact ⟨rfl, Outcome.failure_message_ne stream defect⟩

/-- Reading the written stream back gives the items that were converted. -/
theorem calculate_of_ofInfix (table : Variables) {text : Text} {items : List Postfix.Item}
    (hconverted : Postfix.ofInfix text = .ok items) :
    calculate table text =
      (replyToValue table text (Postfix.write items) (Postfix.evaluate table items)).map
        (.after [Postfix.conversionRecord text]) := by
  rw [calculate, hconverted]
  change (replyToValue table text _ (Postfix.evaluate table (Postfix.read _))).map _ = _
  rw [Postfix.read_write_of_ofInfix hconverted]

def outcomeOfExpression (table : Variables) (text : Text) : Except Fault Outcome :=
  match Postfix.ofInfix text with
  | .ok items => outcomeOfValue (Postfix.write items) (Postfix.evaluate table items)
  | .error _ => .ok (.refusal .invalidExpression)

theorem map_outcome_calculate (table : Variables) (text : Text) :
    (calculate table text).map Reply.outcome = outcomeOfExpression table text := by
  rw [outcomeOfExpression]
  cases hconverted : Postfix.ofInfix text with
  | error obstacle =>
      rw [calculate, hconverted]
      rfl
  | ok items =>
      rw [calculate_of_ofInfix table hconverted, map_map]
      change (replyToValue table text _ (Postfix.evaluate table items)).map _ = outcomeOfValue _ _
      cases Postfix.evaluate table items with
      | ok value => rfl
      | error fault => cases fault <;> rfl

theorem map_outcome_process (table : Variables) {line : Text} (hline : line.squeeze ≠ []) :
    (process table line).map Reply.outcome =
      (Statement.classify table (Signs.normalize line.squeeze)).bind fun statement =>
        (answer table (Signs.normalize line.squeeze) statement).map Reply.outcome := by
  rw [process, if_neg (by simpa using hline), map_map, processNormal]
  cases Statement.classify table (Signs.normalize line.squeeze) with
  | error fault => rfl
  | ok statement =>
      change ((answer table _ statement).map _).map _ = (answer table _ statement).map _
      rw [map_map]
      rfl

/-- An assignment shows neither a value nor a failure. -/
theorem not_calculated_of_assign {table : Variables} {text : Text} {reply : Reply}
    (hreply : assign table text = .ok reply) :
    reply.outcome.status ≠ .ok ∧ reply.outcome.internal = false := by
  obtain ⟨effect, _, rfl⟩ := map_eq_ok_iff.mp hreply
  cases effect.status <;> exact ⟨nofun, rfl⟩

/-- Only an expression has a calculated value or a failure as its outcome. -/
theorem classify_of_calculated {table : Variables} {line : Text} {reply : Reply}
    (hreply : process table line = .ok reply)
    (hcalculated : reply.outcome.status = .ok ∨ reply.outcome.internal = true) :
    Statement.classify table (Signs.normalize line.squeeze) = .ok .expression := by
  have hother : ¬ (reply.outcome.status ≠ .ok ∧ reply.outcome.internal = false) := by
    intro hnone
    obtain ⟨hstatus, hinternal⟩ := hnone
    rcases hcalculated with hok | hfailed
    · exact hstatus hok
    · rw [hinternal] at hfailed
      cases hfailed
  rw [process] at hreply
  split at hreply
  next =>
    cases hreply
    exact absurd ⟨nofun, rfl⟩ hother
  next =>
    obtain ⟨inner, hinner, rfl⟩ := map_eq_ok_iff.mp hreply
    obtain ⟨statement, hstatement, hmap⟩ := bind_eq_ok_iff.mp hinner
    obtain ⟨answered, hanswer, rfl⟩ := map_eq_ok_iff.mp hmap
    rw [outcome_after, outcome_after] at hother
    rw [hstatement]
    cases statement with
    | expression => rfl
    | assignment => exact absurd (not_calculated_of_assign hanswer) hother
    | _ =>
        cases hanswer
        exact absurd ⟨nofun, rfl⟩ hother

theorem classify_nil (table : Variables) :
    Statement.classify table [] = .ok (.refused .invalidIdentifier) :=
  rfl

theorem map_outcome_process_expression {table : Variables} {line : Text}
    (hclassify : Statement.classify table (Signs.normalize line.squeeze) = .ok .expression) :
    (process table line).map Reply.outcome =
      outcomeOfExpression table (Signs.normalize line.squeeze) := by
  have hline : line.squeeze ≠ [] := by
    intro hnil
    rw [hnil, Signs.normalize_nil, classify_nil] at hclassify
    cases hclassify
  rw [map_outcome_process table hline, hclassify]
  exact map_outcome_calculate table _

theorem outcomeOfExpression_of_process {table : Variables} {line : Text} {reply : Reply}
    (hreply : process table line = .ok reply)
    (hcalculated : reply.outcome.status = .ok ∨ reply.outcome.internal = true) :
    outcomeOfExpression table (Signs.normalize line.squeeze) = .ok reply.outcome := by
  rw [← map_outcome_process_expression (classify_of_calculated hreply hcalculated), hreply]
  rfl

theorem exists_value_of_status_eq_ok {table : Variables} {line : Text} {reply : Reply}
    (hreply : process table line = .ok reply) (hstatus : reply.outcome.status = .ok) :
    ∃ items value, Postfix.ofInfix (Signs.normalize line.squeeze) = .ok items ∧
      Postfix.evaluate table items = .ok value ∧ reply.outcome = .number .ok value := by
  have houtcome := outcomeOfExpression_of_process hreply (Or.inl hstatus)
  unfold outcomeOfExpression at houtcome
  split at houtcome
  next items hconverted =>
    cases hvalue : Postfix.evaluate table items with
    | ok value =>
        rw [hvalue] at houtcome
        exact ⟨items, value, hconverted, hvalue, (Except.ok.inj houtcome).symm⟩
    | error fault =>
        rw [hvalue] at houtcome
        exact absurd hstatus (status_ne_ok_of_fault houtcome)
  next =>
    rw [← Except.ok.inj houtcome] at hstatus
    cases hstatus

end Session

end Calculator
