import Calculator.Proofs.Infix
import Calculator.Proofs.Streams

/-! # Operands for operations

Whether the operations of a stream find their operands is told by the number of
values on the stack, without the values. A stream in which all do and that leaves
one value has no defect. Otherwise a defect is met unless a fault of the input
ends the evaluation before the first operation that is short of operands.
-/

namespace Calculator

namespace Postfix

/-- The number of values after an item, if it finds the operands that it needs. -/
def depthAfterItem? (depth : Nat) : Item → Option Nat
  | .operand _ => some (depth + 1)
  | .operation .negate => if depth = 0 then none else some depth
  | .operation (.binary _) => if depth < 2 then none else some (depth - 1)

/-- The number of values after a stream, if all operations find their operands. -/
def depthAfter? (depth : Nat) (items : List Item) : Option Nat :=
  items.foldlM depthAfterItem? depth

theorem depthAfter?_cons (depth : Nat) (item : Item) (rest : List Item) :
    depthAfter? depth (item :: rest) = (depthAfterItem? depth item).bind (depthAfter? · rest) :=
  rfl

/-- The part of a stream before the first operation that is short of operands. -/
def supplied (depth : Nat) : List Item → List Item
  | [] => []
  | item :: rest =>
      match depthAfterItem? depth item with
      | some depth => item :: supplied depth rest
      | none => []

/-- Whether the operand that an item may be is a number or a name. -/
def Item.IsAtomic (item : Item) : Prop :=
  ∀ text, item.operand? = some text → ∃ atom : Atom, atom.text = text

end Postfix

/-- Whether a fault comes from what the user typed: an unbound name or a zero divisor. -/
def Fault.IsOfInput (table : Variables) (fault : Fault) : Prop :=
  fault = .divisionByZero ∨ ∃ name, fault = .unbound name ∧ table.get? name = none

theorem Fault.not_isOfInput_malformed (table : Variables) (defect : Defect) :
    ¬ (malformed defect).IsOfInput table := by
  intro hinput
  rcases hinput with hzero | ⟨name, hname, _⟩
  · cases hzero
  · cases hname

namespace Postfix

variable (table : Variables) {stack : List Int}

/-- An item that finds its operands is carried out or meets a fault of the input. -/
theorem step_of_depthAfterItem? {item : Item} {depth : Nat} (hatomic : item.IsAtomic)
    (hdepth : depthAfterItem? stack.length item = some depth) :
    (∃ result, step table stack item = .ok result ∧ result.length = depth) ∨
      ∃ fault, step table stack item = .error fault ∧ fault.IsOfInput table := by
  cases item with
  | operand text =>
      obtain ⟨atom, rfl⟩ := hatomic text rfl
      rw [step, atom.operandValue_text]
      cases hvalue : atom.value table with
      | ok value => exact Or.inl ⟨value :: stack, rfl, Option.some.inj hdepth⟩
      | error fault => exact Or.inr ⟨fault, rfl, Or.inr (Atom.value_eq_error hvalue)⟩
  | operation operation =>
      cases operation with
      | negate =>
          cases stack with
          | nil => cases hdepth
          | cons value rest => exact Or.inl ⟨-value :: rest, rfl, Option.some.inj hdepth⟩
      | binary operator =>
          rcases stack with - | ⟨right, - | ⟨left, rest⟩⟩
          · cases hdepth
          · cases hdepth
          · rw [step, operate]
            cases hvalue : operator.apply left right with
            | ok value => exact Or.inl ⟨value :: rest, rfl, Option.some.inj hdepth⟩
            | error fault => exact Or.inr ⟨fault, rfl, Or.inl (Operator.apply_eq_error hvalue)⟩

theorem step_of_depthAfterItem?_eq_none {item : Item}
    (hdepth : depthAfterItem? stack.length item = none) :
    ∃ defect, step table stack item = .error (.malformed defect) := by
  cases item with
  | operand text => cases hdepth
  | operation operation =>
      cases operation with
      | negate =>
          cases stack with
          | nil => exact ⟨_, rfl⟩
          | cons => cases hdepth
      | binary operator =>
          rcases stack with - | ⟨right, - | ⟨left, rest⟩⟩
          · exact ⟨_, rfl⟩
          · exact ⟨_, rfl⟩
          · rw [depthAfterItem?, if_neg (by simp)] at hdepth
            cases hdepth

theorem run_of_depthAfter? {items : List Item} {depth : Nat}
    (hatomic : ∀ item ∈ items, item.IsAtomic)
    (hdepth : depthAfter? stack.length items = some depth) :
    (∃ result, run table stack items = .ok result ∧ result.length = depth) ∨
      ∃ fault, run table stack items = .error fault ∧ fault.IsOfInput table := by
  induction items generalizing stack with
  | nil => exact Or.inl ⟨stack, rfl, Option.some.inj hdepth⟩
  | cons item rest ih =>
      obtain ⟨hitem, hrest⟩ := List.forall_mem_cons.mp hatomic
      obtain ⟨next, hnext, hafter⟩ := Option.bind_eq_some_iff.mp hdepth
      rw [run_cons]
      rcases step_of_depthAfterItem? table hitem hnext with
        ⟨result, hstep, rfl⟩ | ⟨fault, hstep, hinput⟩
      · rw [hstep]
        exact ih hrest hafter
      · rw [hstep]
        exact Or.inr ⟨fault, rfl, hinput⟩

/-- The part before the first shortage has the fault of the whole stream, or the
whole stream has a defect. -/
theorem run_of_depthAfter?_eq_none {items : List Item}
    (hatomic : ∀ item ∈ items, item.IsAtomic) (hdepth : depthAfter? stack.length items = none) :
    ((∃ result, run table stack (supplied stack.length items) = .ok result) ∧
        ∃ defect, run table stack items = .error (.malformed defect)) ∨
      ∃ fault, run table stack (supplied stack.length items) = .error fault ∧
        run table stack items = .error fault ∧ fault.IsOfInput table := by
  induction items generalizing stack with
  | nil => cases hdepth
  | cons item rest ih =>
      obtain ⟨hitem, hrest⟩ := List.forall_mem_cons.mp hatomic
      rw [run_cons, supplied]
      cases hnext : depthAfterItem? stack.length item with
      | none =>
          -- the first shortage: what was supplied ends here without a fault
          obtain ⟨defect, hstep⟩ := step_of_depthAfterItem?_eq_none table hnext
          rw [hstep]
          exact Or.inl ⟨⟨stack, rfl⟩, defect, rfl⟩
      | some next =>
          rw [depthAfter?_cons, hnext] at hdepth
          simp only [run_cons]
          rcases step_of_depthAfterItem? table hitem hnext with
            ⟨result, hstep, rfl⟩ | ⟨fault, hstep, hinput⟩
          · rw [hstep]
            exact ih hrest hdepth
          · rw [hstep]
            exact Or.inr ⟨fault, rfl, rfl, hinput⟩

/-- A stream whose operations find their operands and that leaves one value has
this value or a fault of the input. -/
theorem evaluate_ne_malformed_of_depthAfter? {items : List Item}
    (hatomic : ∀ item ∈ items, item.IsAtomic) (hdepth : depthAfter? 0 items = some 1)
    (defect : Defect) : evaluate table items ≠ .error (.malformed defect) := by
  have hdepth : depthAfter? ([] : List Int).length items = some 1 := hdepth
  intro hdefect
  rw [evaluate] at hdefect
  rcases run_of_depthAfter? table hatomic hdepth with
    ⟨result, hrun, hlength⟩ | ⟨fault, hrun, hinput⟩
  · obtain ⟨value, rfl⟩ := List.length_eq_one_iff.mp hlength
    rw [hrun] at hdefect
    cases hdefect
  · rw [hrun] at hdefect
    cases hdefect
    exact Fault.not_isOfInput_malformed table defect hinput

/-- A stream with a shortage has a defect exactly if the part before the shortage
meets no fault. -/
theorem evaluate_eq_malformed_iff {items : List Item} (hatomic : ∀ item ∈ items, item.IsAtomic)
    (hdepth : depthAfter? 0 items = none) :
    (∃ defect, evaluate table items = .error (.malformed defect)) ↔
      ∃ stack, run table [] (supplied 0 items) = .ok stack := by
  have hdepth : depthAfter? ([] : List Int).length items = none := hdepth
  rw [evaluate]
  rcases run_of_depthAfter?_eq_none table hatomic hdepth with
    ⟨hsupplied, defect, hrun⟩ | ⟨fault, hsupplied, hrun, hinput⟩
  · exact ⟨fun _ => hsupplied, fun _ => ⟨defect, by rw [hrun]; rfl⟩⟩
  · constructor
    · intro hmalformed
      obtain ⟨defect, hdefect⟩ := hmalformed
      rw [hrun] at hdefect
      cases hdefect
      exact absurd hinput (Fault.not_isOfInput_malformed table defect)
    · intro hends
      obtain ⟨result, hok⟩ := hends
      rw [List.length_nil, hok] at hsupplied
      cases hsupplied

theorem evaluate_trichotomy {items : List Item} (hatomic : ∀ item ∈ items, item.IsAtomic) :
    ((∃ value, evaluate table items = .ok value) ∨
        ∃ fault, evaluate table items = .error fault ∧ fault.IsOfInput table) ∨
      ∃ defect, evaluate table items = .error (.malformed defect) := by
  rw [evaluate]
  cases hdepth : depthAfter? ([] : List Int).length items with
  | some depth =>
      rcases run_of_depthAfter? table hatomic hdepth with
        ⟨result, hrun, _⟩ | ⟨fault, hrun, hinput⟩
      · rw [hrun]
        rcases result with - | ⟨value, - | ⟨second, rest⟩⟩
        · exact Or.inr ⟨_, rfl⟩
        · exact Or.inl (Or.inl ⟨value, rfl⟩)
        · exact Or.inr ⟨_, rfl⟩
      · rw [hrun]
        exact Or.inl (Or.inr ⟨fault, rfl, hinput⟩)
  | none =>
      rcases run_of_depthAfter?_eq_none table hatomic hdepth with
        ⟨_, defect, hrun⟩ | ⟨fault, _, hrun, hinput⟩
      · rw [hrun]
        exact Or.inr ⟨defect, rfl⟩
      · rw [hrun]
        exact Or.inl (Or.inr ⟨fault, rfl, hinput⟩)

end Postfix

end Calculator
