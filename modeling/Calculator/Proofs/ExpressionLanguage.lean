import Calculator.Proofs.Calculations
import Calculator.Proofs.Continuations

/-! # The language of expressions

A line is classified as an expression exactly if it matches the pattern of
expressions. No text of the pattern is taken for a command, an assignment or a
lone operand.
-/

namespace Calculator

namespace Pattern

theorem ne_nil_of_mem_operand {text : Text} (htext : text ∈ operand.matches') : text ≠ [] := by
  obtain ⟨atom, rfl⟩ := mem_operand_iff.mp htext
  exact atom.text_ne_nil

/-- In a clause something joins the operand to what follows. -/
theorem exists_joint_of_mem_clause {text : Text} (htext : text ∈ clause.matches') :
    ∃ before run after, before ≠ [] ∧ run ∈ joint.matches' ∧ text = before ++ (run ++ after) := by
  obtain ⟨_, hjoined, after, _, rfl⟩ := Language.mem_mul.mp htext
  obtain ⟨_, hclosed, run, hrun, rfl⟩ := Language.mem_mul.mp hjoined
  obtain ⟨_, hopened, closes, _, rfl⟩ := Language.mem_mul.mp hclosed
  obtain ⟨opening, _, own, hown, rfl⟩ := Language.mem_mul.mp hopened
  refine ⟨opening ++ own ++ closes, run, after, ?_, hrun, by simp⟩
  simp [ne_nil_of_mem_operand hown]

/-- In an expression something joins operands on both sides of it. -/
theorem exists_joint_of_mem_expression {text : Text} (htext : text ∈ expression.matches') :
    ∃ before run after, before ≠ [] ∧ run ∈ joint.matches' ∧ after ≠ [] ∧
      text = before ++ (run ++ after) := by
  obtain ⟨_, hclosed, closes, _, rfl⟩ := Language.mem_mul.mp htext
  obtain ⟨_, hclauses, last, hlast, rfl⟩ := Language.mem_mul.mp hclosed
  obtain ⟨first, hfirst, clauses, _, rfl⟩ := Language.mem_mul.mp hclauses
  obtain ⟨before, run, after, hbefore, hrun, rfl⟩ := exists_joint_of_mem_clause hfirst
  refine ⟨before, run, after ++ clauses ++ last ++ closes, hbefore, hrun, ?_, by simp⟩
  simp [ne_nil_of_mem_operand hlast]

/-- What joins operands begins with a character that is neither letter nor digit. -/
theorem exists_cons_of_mem_joint {text : Text} (htext : text ∈ joint.matches') :
    ∃ c more, text = c :: more ∧ Text.isLetter c = false ∧ Text.isDecimal c = false := by
  rcases mem_joint_iff.mp htext with ⟨sign, count, rfl⟩ | ⟨c, hc, rfl⟩
  · exact ⟨_, _, rfl, sign.isLetter_symbol, sign.isDecimal_symbol⟩
  · refine ⟨c, [], rfl, ?_⟩
    rcases hc with rfl | rfl | rfl
    · exact ⟨Operator.times.isLetter_symbol, Operator.times.isDecimal_symbol⟩
    · exact ⟨Operator.divide.isLetter_symbol, Operator.divide.isDecimal_symbol⟩
    · decide +kernel

theorem isTried_eq_false_of_mem_expression {text : Text} (htext : text ∈ expression.matches') :
    Operand.isTried text = false := by
  obtain ⟨before, run, after, hbefore, hrun, hafter, rfl⟩ := exists_joint_of_mem_expression htext
  obtain ⟨c, more, rfl, hletter, hdecimal⟩ := exists_cons_of_mem_joint hrun
  apply Operand.isTried_eq_false hletter hdecimal hbefore
  exact List.append_ne_nil_of_right_ne_nil more hafter

end Pattern

namespace Expression

theorem head?_ne_of_accepts {text : Text} (haccepts : accepts (Token.ofText text) = true) :
    text.head? ≠ some '/' := by
  intro hhead
  obtain ⟨rest, rfl⟩ := List.head?_eq_some_iff.mp hhead
  rw [Token.ofText_lone_cons fun _ => rfl] at haccepts
  cases haccepts

theorem Progress.next?_equals (progress : Progress) :
    progress.next? (Token.single '=') = none := by
  obtain ⟨place, joined, signed⟩ := progress
  cases place <;> rfl

theorem equals_not_mem_of_accepts {text : Text} (haccepts : accepts (Token.ofText text) = true) :
    '=' ∉ text := by
  intro hequals
  obtain ⟨before, after, rfl⟩ := List.append_of_mem hequals
  rw [accepts, Token.ofText_append_equals_cons, Progress.accepts_eq_any,
    Progress.run?_append] at haccepts
  simp [Progress.run?_cons, Progress.next?_equals] at haccepts

end Expression

namespace Statement

open Expression

theorem status_eq_ok_iff (statement : Statement) :
    statement.status = .ok ↔ statement = .expression := by
  cases statement <;> simp [status]

theorem classify_eq_expression_iff (table : Variables) (text : Text) :
    classify table text = .ok .expression ↔ text ∈ Pattern.expression.matches' := by
  rw [← accepts_ofText_iff_mem]
  refine ⟨accepts_of_classify, fun haccepts => ?_⟩
  have htried := Pattern.isTried_eq_false_of_mem_expression
    ((accepts_ofText_iff_mem text).mp haccepts)
  rw [classify, if_neg (head?_ne_of_accepts haccepts),
    Assignment.check?_eq_none (equals_not_mem_of_accepts haccepts), ofCalculation, htried, haccepts]
  rfl

theorem map_status_classify_eq_ok_iff (table : Variables) (text : Text) :
    (classify table text).map status = .ok .ok ↔ text ∈ Pattern.expression.matches' := by
  rw [← classify_eq_expression_iff table, map_eq_ok_iff]
  simp only [status_eq_ok_iff]
  exact ⟨by rintro ⟨_, hclassify, rfl⟩; exact hclassify, fun hclassify => ⟨_, hclassify, rfl⟩⟩

/-- A text is classified as an expression exactly if it matches the pattern of
expressions, and so exactly if its tokens have the form of one. No such text is
a command or an assignment, and none is tried as a lone operand. -/
theorem classify_status_eq_ok_iff (table : Variables) (text : Text) :
    ((classify table text).map status = .ok .ok ↔ text ∈ Pattern.expression.matches') ∧
      (accepts (Token.ofText text) = true ↔ text ∈ Pattern.expression.matches') ∧
      (text ∈ Pattern.expression.matches' →
        text.head? ≠ some '/' ∧ '=' ∉ text ∧ Operand.isTried text = false) := by
  have haccepts := accepts_ofText_iff_mem text
  refine ⟨map_status_classify_eq_ok_iff table text, haccepts, fun htext => ?_⟩
  exact ⟨head?_ne_of_accepts (haccepts.mpr htext), equals_not_mem_of_accepts (haccepts.mpr htext),
    Pattern.isTried_eq_false_of_mem_expression htext⟩

end Statement

end Calculator
