import Calculator.Proofs.Defects
import Mathlib.Data.List.Induction

/-! # Stack depths of expressions

The stream of an expression begins with an operand, and whatever is carried out leaves
a value behind, so no negation lacks one. An expression has an operator between each
two operands and no more of them, so that one value is left once all operators have
found their operands.
-/

namespace Calculator

namespace Postfix

variable {table : Variables} {stack next : List Int}

theorem step_ne_nil {item : Item} (hstep : step table stack item = .ok next) : next ≠ [] := by
  cases item with
  | operand text =>
      obtain ⟨value, _, rfl⟩ := map_eq_ok_iff.mp hstep
      exact List.cons_ne_nil value stack
  | operation operation =>
      rw [step, operate.eq_def] at hstep
      split at hstep
      next value rest =>
        cases hstep
        exact List.cons_ne_nil (-value) rest
      next => cases hstep
      next operator right left rest =>
        obtain ⟨value, _, rfl⟩ := map_eq_ok_iff.mp hstep
        exact List.cons_ne_nil value rest
      next => cases hstep

/-- The stack is not empty once the first item was carried out. -/
theorem run_ne_nil {items : List Item} (hitems : items ≠ [])
    (hrun : run table stack items = .ok next) : next ≠ [] := by
  cases items using List.reverseRecOn with
  | nil => exact absurd rfl hitems
  | append_singleton front last =>
      rw [run_concat] at hrun
      obtain ⟨before, _, hstep⟩ := bind_eq_ok_iff.mp hrun
      exact step_ne_nil hstep

theorem operandValue_ne_malformed (text : Text) (defect : Defect) :
    operandValue table text ≠ .error (.malformed defect) := by
  intro hvalue
  rw [operandValue, Numeral.value] at hvalue
  split at hvalue <;> split at hvalue <;> cases hvalue

/-- A step shows a defect if it is a negation on an empty stack or a binary operator on
fewer than two values. -/
theorem step_eq_malformed {item : Item} {defect : Defect}
    (hstep : step table stack item = .error (.malformed defect)) :
    (item = .operation .negate ∧ stack = []) ∨
      ∃ operator, item = .operation (.binary operator) ∧ defect = .missingOperands operator := by
  cases item with
  | operand text =>
      rw [step] at hstep
      cases hvalue : operandValue table text with
      | ok value =>
          rw [hvalue] at hstep
          cases hstep
      | error fault =>
          rw [hvalue] at hstep
          cases hstep
          exact absurd hvalue (operandValue_ne_malformed text defect)
  | operation operation =>
      rw [step, operate.eq_def] at hstep
      split at hstep
      next => cases hstep
      next => exact Or.inl ⟨rfl, rfl⟩
      next operator right left rest =>
        cases hvalue : operator.apply left right with
        | ok value =>
            rw [hvalue] at hstep
            cases hstep
        | error fault =>
            rw [hvalue, Operator.apply_eq_error hvalue] at hstep
            cases hstep
      next operator _ =>
        cases hstep
        exact Or.inr ⟨operator, rfl, rfl⟩

/-- On a stack with values only a binary operator is ever short of operands. -/
theorem run_eq_malformed {items : List Item} {defect : Defect} (hstack : stack ≠ [])
    (hrun : run table stack items = .error (.malformed defect)) :
    ∃ operator, defect = .missingOperands operator := by
  induction items generalizing stack with
  | nil => cases hrun
  | cons item rest ih =>
      rw [run_cons] at hrun
      cases hstep : step table stack item with
      | error fault =>
          rw [hstep] at hrun
          cases hrun
          rcases step_eq_malformed hstep with ⟨_, hnil⟩ | ⟨operator, _, hdefect⟩
          · exact absurd hnil hstack
          · exact ⟨operator, hdefect⟩
      | ok next =>
          rw [hstep] at hrun
          exact ih (step_ne_nil hstep) hrun

theorem run_operand_cons_eq_malformed {text : Text} {rest : List Item} {defect : Defect}
    (hrun : run table [] (.operand text :: rest) = .error (.malformed defect)) :
    ∃ operator, defect = .missingOperands operator := by
  rw [run_cons] at hrun
  cases hstep : step table [] (.operand text) with
  | error fault =>
      rw [hstep] at hrun
      cases hrun
      rcases step_eq_malformed hstep with ⟨hitem, _⟩ | ⟨_, hitem, _⟩ <;> cases hitem
  | ok next =>
      rw [hstep] at hrun
      exact run_eq_malformed (step_ne_nil hstep) hrun

/-- Only opening parentheses and signs stand before the first operand of an expression,
so it is the first item that the conversion emits. -/
theorem Stage.CompletedBy.exists_operand_cons {stage : Stage} {lexemes : List Lexeme}
    (h : stage.CompletedBy lexemes) (hstage : stage = .start) {waiting : List Operation}
    {outer : List (List Operation)} {items : List Item}
    (hconvert : convert waiting outer true lexemes = .ok items) :
    ∃ atom : Atom, ∃ rest, items = .operand atom.text :: rest := by
  induction h generalizing waiting outer with
  | done | operator | foreign => cases hstage
  | opening _ _ ih => exact ih hstage hconvert
  | sign _ sign _ ih => exact ih hstage hconvert
  | operand _ atom _ _ =>
      obtain ⟨rest, _, rfl⟩ := map_eq_ok_iff.mp hconvert
      exact ⟨atom, rest, rfl⟩
  | closing hstart => exact absurd hstage hstart

/-- The stream of an expression leaves one value, or it stops at a fault of the input or
at a binary operator without operands. -/
theorem run_ofInfix_cases (table : Variables) {text : Text} {items : List Item}
    (hcompleted : Stage.CompletedBy .start (Lexeme.ofText text))
    (hconverted : ofInfix text = .ok items) :
    (∃ value, run table [] items = .ok [value]) ∨
      ∃ fault, run table [] items = .error fault ∧
        (fault.IsOfInput table ∨ ∃ operator, fault = .malformed (.missingOperands operator)) := by
  have hatomic := isAtomic_of_ofInfix hcompleted hconverted
  rcases depthAfter?_ofInfix hcompleted hconverted with ⟨_, hdepth⟩ | ⟨_, hdepth⟩
  · have hdepth : depthAfter? ([] : List Int).length items = none := hdepth
    rcases run_of_depthAfter?_eq_none table hatomic hdepth with
      ⟨_, defect, hrun⟩ | ⟨fault, _, hrun, hinput⟩
    · obtain ⟨atom, rest, rfl⟩ := hcompleted.exists_operand_cons rfl hconverted
      obtain ⟨operator, rfl⟩ := run_operand_cons_eq_malformed hrun
      exact Or.inr ⟨_, hrun, Or.inr ⟨operator, rfl⟩⟩
    · exact Or.inr ⟨fault, hrun, Or.inl hinput⟩
  · have hdepth : depthAfter? ([] : List Int).length items = some 1 := hdepth
    rcases run_of_depthAfter? table hatomic hdepth with
      ⟨result, hrun, hlength⟩ | ⟨fault, hrun, hinput⟩
    · obtain ⟨value, rfl⟩ := List.length_eq_one_iff.mp hlength
      exact Or.inl ⟨value, hrun⟩
    · exact Or.inr ⟨fault, hrun, Or.inl hinput⟩

/-- The stream of a text that has the form of an expression begins with an operand, and
its stack is not empty from then on. If no name is unbound, no divisor is zero and no
binary operator finds fewer than two operands, one value is left at the end. So nothing
is missing to negate, no values are left over and no operator is unknown. -/
theorem stack_of_accepts (table : Variables) {text stream : Text}
    (haccepts : Expression.accepts (Token.ofText text) = true)
    (hconverted : (ofInfix text).map write = .ok stream) :
    (∃ atom : Atom, ∃ rest, read stream = .operand atom.text :: rest) ∧
    (∀ before after stack, read stream = before ++ after → before ≠ [] →
      run table [] before = .ok stack → stack ≠ []) ∧
    ((∃ value, run table [] (read stream) = .ok [value]) ∨
      ∃ fault, run table [] (read stream) = .error fault ∧
        ((∃ name, fault = .unbound name ∧ table.get? name = none) ∨ fault = .divisionByZero ∨
          ∃ operator, fault = .malformed (.missingOperands operator))) ∧
    ∀ fault, evaluate table (read stream) = .error fault →
      fault ≠ .malformed .nothingToNegate ∧ (∀ count, fault ≠ .malformed (.valuesLeft count)) ∧
        ∀ symbol, fault ≠ .unknownOperator symbol := by
  obtain ⟨items, hitems, rfl⟩ := map_eq_ok_iff.mp hconverted
  have hcompleted := Statement.completedBy_of_accepts haccepts
  rw [read_write_of_ofInfix hitems]
  refine ⟨hcompleted.exists_operand_cons rfl hitems, fun _ _ _ _ hne hrun => run_ne_nil hne hrun,
    ?_, ?_⟩
  · rcases run_ofInfix_cases table hcompleted hitems with
      hvalue | ⟨fault, hrun, (hzero | hunbound) | hmissing⟩
    · exact Or.inl hvalue
    · exact Or.inr ⟨fault, hrun, Or.inr (Or.inl hzero)⟩
    · exact Or.inr ⟨fault, hrun, Or.inl hunbound⟩
    · exact Or.inr ⟨fault, hrun, Or.inr (Or.inr hmissing)⟩
  · intro fault hfault
    rw [evaluate] at hfault
    rcases run_ofInfix_cases table hcompleted hitems with ⟨value, hrun⟩ | ⟨found, hrun, hkind⟩
    · rw [hrun] at hfault
      cases hfault
    · rw [hrun] at hfault
      cases hfault
      rcases hkind with (rfl | ⟨name, rfl, _⟩) | ⟨operator, rfl⟩ <;> simp

/-- Behind a closing parenthesis a sign is a sign for the form and an operator for the
conversion, so an operator that waits outside is released too early. -/
theorem stack_of_sign_behind_closing :
    Expression.accepts (Token.ofText "4-(2*)-a+3".toList) = true ∧
      (ofInfix "4-(2*)-a+3".toList).map write = .ok "4 2 * - a - 3 +".toList ∧
      ((∃ value, run Variables.empty [] (read "4 2 * - a - 3 +".toList) = .ok [value]) ∨
        ∃ fault, run Variables.empty [] (read "4 2 * - a - 3 +".toList) = .error fault ∧
          ((∃ name, fault = .unbound name ∧ Variables.empty.get? name = none) ∨
            fault = .divisionByZero ∨
            ∃ operator, fault = .malformed (.missingOperands operator))) := by
  have haccepts : Expression.accepts (Token.ofText "4-(2*)-a+3".toList) = true := by
    decide +kernel
  have hconverted : (ofInfix "4-(2*)-a+3".toList).map write = .ok "4 2 * - a - 3 +".toList := by
    decide +kernel
  exact ⟨haccepts, hconverted, (stack_of_accepts Variables.empty haccepts hconverted).2.2.1⟩

end Postfix

end Calculator
