import Calculator.Proofs.Shortage

/-! # Lines that show a defect

A line shows a defect of its stream exactly if it is an expression that converts,
an operator in it is short of operands, and nothing before that operator is
unbound or divides by zero.
-/

namespace Calculator

namespace Postfix

theorem Stage.CompletedBy.exists_atom {stage : Stage} {lexemes : List Lexeme}
    (h : stage.CompletedBy lexemes) {text : Text} (hmem : .operand text ∈ lexemes) :
    ∃ atom : Atom, atom.text = text := by
  induction h with
  | done => cases hmem
  | @operand _ _ _ atom _ ih =>
      rcases List.mem_cons.mp hmem with heq | hrest
      · exact ⟨atom, (Lexeme.operand.inj heq).symm⟩
      · exact ih hrest
  | _ => simp_all

theorem isAtomic_of_ofInfix {text : Text} {items : List Item}
    (hcompleted : Stage.CompletedBy .start (Lexeme.ofText text))
    (hconverted : ofInfix text = .ok items) : ∀ item ∈ items, item.IsAtomic := by
  intro item hitem run hrun
  have hmem : run ∈ (Lexeme.ofText text).filterMap Lexeme.operand? := by
    rw [← filterMap_operand?_convert hconverted]
    exact List.mem_filterMap.mpr ⟨item, hitem, hrun⟩
  obtain ⟨lexeme, hlexeme, hoperand⟩ := List.mem_filterMap.mp hmem
  cases lexeme with
  | operand found =>
      cases hoperand
      exact hcompleted.exists_atom hlexeme
  | _ => cases hoperand

variable {table : Variables} {text : Text} {items : List Item}

/-- The stream of an expression leaves one value or has a shortage, as the text
says. -/
theorem depthAfter?_ofInfix (hcompleted : Stage.CompletedBy .start (Lexeme.ofText text))
    (hconverted : ofInfix text = .ok items) :
    (Starved text ∧ depthAfter? 0 items = none) ∨
      (¬ Starved text ∧ depthAfter? 0 items = some 1) :=
  depthAfter?_convert hcompleted hconverted (.flat .nil) (.start (List.forall_mem_nil _) rfl)

/-- A starved expression shows a defect unless a fault of the input comes first. -/
theorem evaluate_eq_malformed_iff_starved
    (hclassify : Statement.classify table text = .ok .expression)
    (hconverted : ofInfix text = .ok items) :
    (∃ defect, evaluate table items = .error (.malformed defect)) ↔
      Starved text ∧ ∃ stack, run table [] (supplied 0 items) = .ok stack := by
  have hcompleted := Statement.completedBy_of_classify hclassify
  have hatomic := isAtomic_of_ofInfix hcompleted hconverted
  rcases depthAfter?_ofInfix hcompleted hconverted with ⟨hstarved, hdepth⟩ | ⟨hfed, hdepth⟩
  · rw [evaluate_eq_malformed_iff table hatomic hdepth, and_iff_right hstarved]
  · refine ⟨?_, fun h => absurd h.1 hfed⟩
    intro hmalformed
    obtain ⟨defect, hdefect⟩ := hmalformed
    exact absurd hdefect (evaluate_ne_malformed_of_depthAfter? table hatomic hdepth defect)

/-- Every other expression that converts has a value or a fault of the input. -/
theorem evaluate_ends_iff_not_starved
    (hclassify : Statement.classify table text = .ok .expression)
    (hconverted : ofInfix text = .ok items) :
    ((∃ value, evaluate table items = .ok value) ∨
        ∃ fault, evaluate table items = .error fault ∧ fault.IsOfInput table) ↔
      ¬ (Starved text ∧ ∃ stack, run table [] (supplied 0 items) = .ok stack) := by
  rw [← evaluate_eq_malformed_iff_starved hclassify hconverted]
  constructor
  · rintro (⟨value, hvalue⟩ | ⟨fault, hfault, hinput⟩) ⟨defect, hdefect⟩
    · rw [hvalue] at hdefect
      cases hdefect
    · rw [hfault] at hdefect
      cases hdefect
      exact Fault.not_isOfInput_malformed table defect hinput
  · have hatomic := isAtomic_of_ofInfix (Statement.completedBy_of_classify hclassify) hconverted
    exact (evaluate_trichotomy table hatomic).resolve_right

end Postfix

namespace Session

open Postfix

/-- The evaluation of an expression that converts ends in a value, an unbound name
or a zero divisor, unless an operator of the text is short of operands and what
stands before it in the stream is evaluated without a fault. A line shows a
failure other than a zero divisor in exactly these cases. -/
theorem internal_failure_iff_starved (table : Variables) :
    (∀ text items, Statement.classify table text = .ok .expression → ofInfix text = .ok items →
      (((∃ value, evaluate table items = .ok value) ∨
          ∃ fault, evaluate table items = .error fault ∧ fault.IsOfInput table) ↔
        ¬ (Starved text ∧ ∃ stack, run table [] (supplied 0 items) = .ok stack))) ∧
    ∀ line, (∃ reply, process table line = .ok reply ∧ reply.outcome.internal = true ∧
        reply.outcome ≠ .failure "division by zero") ↔
      Statement.classify table (Signs.normalize line.squeeze) = .ok .expression ∧
        ∃ items, ofInfix (Signs.normalize line.squeeze) = .ok items ∧
          Starved (Signs.normalize line.squeeze) ∧
          ∃ stack, run table [] (supplied 0 items) = .ok stack := by
  refine ⟨fun _ _ => evaluate_ends_iff_not_starved, fun line => ⟨?_, ?_⟩⟩
  · intro hfailure
    obtain ⟨reply, hreply, hinternal, hne⟩ := hfailure
    have hclassify := classify_of_calculated hreply (Or.inr hinternal)
    have houtcome := outcomeOfExpression_of_process hreply (Or.inr hinternal)
    unfold outcomeOfExpression at houtcome
    split at houtcome
    next items hconverted =>
      have hdefect := (internal_and_ne_iff houtcome).mp ⟨hinternal, hne⟩
      rw [evaluate_eq_malformed_iff_starved hclassify hconverted] at hdefect
      exact ⟨hclassify, items, hconverted, hdefect⟩
    next =>
      rw [← Except.ok.inj houtcome] at hinternal
      cases hinternal
  · intro hexpression
    obtain ⟨hclassify, items, hconverted, hstarved⟩ := hexpression
    have hmalformed := evaluate_eq_malformed_iff_starved hclassify hconverted
    obtain ⟨defect, hdefect⟩ := hmalformed.mpr hstarved
    have houtcome := map_outcome_process_expression hclassify
    rw [outcomeOfExpression, hconverted] at houtcome
    change _ = outcomeOfValue _ (evaluate table items) at houtcome
    rw [hdefect] at houtcome
    obtain ⟨reply, hreply, hfailure⟩ := map_eq_ok_iff.mp houtcome
    refine ⟨reply, hreply, ?_⟩
    rw [hfailure]
    exact ⟨rfl, Outcome.failure_message_ne _ defect⟩

/-- Where an operator waits outside, closing behind another operator does no harm. -/
theorem evaluate_of_waiting_outside :
    ∃ items, Statement.classify Variables.empty "2*(1+)3".toList = .ok .expression ∧
      ofInfix "2*(1+)3".toList = .ok items ∧ ¬ Starved "2*(1+)3".toList ∧
      ((∃ value, evaluate Variables.empty items = .ok value) ∨
        ∃ fault, evaluate Variables.empty items = .error fault ∧
          fault.IsOfInput Variables.empty) := by
  let items : List Item :=
    [.operand ['2'], .operand ['1'], .operation (.binary .plus), .operand ['3'],
      .operation (.binary .times)]
  have hclassify : Statement.classify Variables.empty "2*(1+)3".toList = .ok .expression := by
    decide +kernel
  have hconverted : ofInfix "2*(1+)3".toList = .ok items := by
    decide +kernel
  rcases depthAfter?_ofInfix (Statement.completedBy_of_classify hclassify) hconverted with
    ⟨_, hdepth⟩ | ⟨hfed, _⟩
  · cases hdepth
  · have hends := (internal_failure_iff_starved Variables.empty).1 _ items hclassify hconverted
    exact ⟨items, hclassify, hconverted, hfed, hends.mpr fun h => hfed h.1⟩

/-- A parenthesis that closes between an operator and its right operand. -/
theorem internal_failure_of_closing_operator :
    ∃ reply, process Variables.empty "(1+)2".toList = .ok reply ∧ reply.outcome.internal = true ∧
      reply.outcome = .failure "not enough operands for '+' in '1 + 2'" ∧
      reply.outcome ≠ .failure "division by zero" := by
  have hshown : (process Variables.empty "(1+)2".toList).map Reply.outcome =
      .ok (.failure "not enough operands for '+' in '1 + 2'") := by
    decide +kernel
  obtain ⟨reply, hreply, houtcome⟩ := map_eq_ok_iff.mp hshown
  rw [← houtcome]
  refine ⟨reply, hreply, ?_, rfl, ?_⟩
  · rw [houtcome]
    rfl
  · rw [houtcome]
    decide +kernel

end Session

end Calculator
