import Calculator.Postfix.Lexeme
import Calculator.Proofs.Characters

/-! # Lexemes of composed texts

A symbol is a lexeme of its own, and a run of letters and digits is one operand
as far as it reaches.
-/

namespace Calculator.Postfix.Lexeme

def beginsOperand (text : Text) : Bool :=
  text.head?.any Char.isAlphanum

theorem ofText_cons (c : Char) (rest : Text) : ofText (c :: rest) = attach c (ofText rest) :=
  rfl

theorem ofText_symbol_cons {c : Char} (hc : c.isAlphanum = false) (rest : Text) :
    ofText (c :: rest) = ofSymbol c :: ofText rest := by
  rw [ofText_cons, attach, hc, if_neg Bool.false_ne_true]

theorem attachToOperand_ofText {rest : Text} (c : Char) (hrest : beginsOperand rest = false) :
    attachToOperand c (ofText rest) = .operand [c] :: ofText rest := by
  cases rest with
  | nil => rfl
  | cons head tail =>
      have hhead : head.isAlphanum = false := hrest
      rw [ofText_symbol_cons hhead, ofSymbol]
      split
      · rfl
      · split
        · rfl
        · cases Operator.ofSymbol? head <;> rfl

/-- A run of letters and digits that nothing continues is one operand. -/
theorem ofText_run_append {run rest : Text} (hne : run ≠ [])
    (hrun : ∀ c ∈ run, c.isAlphanum = true) (hrest : beginsOperand rest = false) :
    ofText (run ++ rest) = .operand run :: ofText rest := by
  induction run with
  | nil => exact absurd rfl hne
  | cons c tail ih =>
      obtain ⟨hc, htail⟩ := List.forall_mem_cons.mp hrun
      rw [List.cons_append, ofText_cons, attach, if_pos hc]
      cases tail with
      | nil => exact attachToOperand_ofText c hrest
      | cons next others =>
          rw [ih (List.cons_ne_nil _ _) htail]
          rfl

def operand? : Lexeme → Option Text
  | .operand text => some text
  | _ => none

theorem filterMap_operand?_cons (text : Text) (rest : List Lexeme) :
    (.operand text :: rest).filterMap operand? = text :: rest.filterMap operand? :=
  rfl

theorem operand?_ofSymbol (c : Char) : (ofSymbol c).operand? = none := by
  unfold ofSymbol
  split
  · rfl
  · split
    · rfl
    · cases Operator.ofSymbol? c <;> rfl

/-- Whether a text is what an operand of the conversion may be. -/
def IsRun (text : Text) : Prop :=
  text ≠ [] ∧ ∀ c ∈ text, c.isAlphanum = true

theorem isRun_cons {c : Char} {text : Text} (hc : c.isAlphanum = true)
    (htext : ∀ d ∈ text, d.isAlphanum = true) : IsRun (c :: text) :=
  ⟨List.cons_ne_nil c text, List.forall_mem_cons.mpr ⟨hc, htext⟩⟩

theorem isRun_of_mem_attachToOperand {c : Char} {lexemes : List Lexeme}
    (hc : c.isAlphanum = true) (hlexemes : ∀ run ∈ lexemes.filterMap operand?, IsRun run) :
    ∀ run ∈ (attachToOperand c lexemes).filterMap operand?, IsRun run := by
  intro run hrun
  rw [attachToOperand.eq_def] at hrun
  split at hrun
  next text rest =>
    rw [filterMap_operand?_cons, List.forall_mem_cons] at hlexemes
    rw [filterMap_operand?_cons] at hrun
    rcases List.mem_cons.mp hrun with rfl | hrun
    · exact isRun_cons hc hlexemes.1.2
    · exact hlexemes.2 run hrun
  next =>
    rw [filterMap_operand?_cons] at hrun
    rcases List.mem_cons.mp hrun with rfl | hrun
    · exact isRun_cons hc (by simp)
    · exact hlexemes run hrun

theorem isRun_of_mem_ofText (text : Text) :
    ∀ run ∈ (ofText text).filterMap operand?, IsRun run := by
  induction text with
  | nil => exact List.forall_mem_nil _
  | cons c rest ih =>
      rw [ofText_cons, attach]
      split
      next hc => exact isRun_of_mem_attachToOperand hc ih
      next => rwa [List.filterMap_cons_none (operand?_ofSymbol c)]

end Calculator.Postfix.Lexeme
