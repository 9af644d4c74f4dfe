import Calculator.Proofs.Lexemes
import Calculator.Proofs.Nesting
import Calculator.Proofs.Results
import Calculator.Postfix.Conversion

/-! # Texts that do not convert

A level of waiting operations is opened and closed with each pair of parentheses and by
nothing else, so their number is that of the open parentheses. A conversion therefore
fails only at a character that has no place in an infix text or where the parentheses
do not balance.
-/

namespace Calculator.Postfix

/-- Lexemes convert if none is foreign and the parentheses among them close the levels
around. -/
theorem exists_convert_iff {waiting : List Operation} {outer : List (List Operation)}
    {prefixed : Bool} {lexemes : List Lexeme} :
    (∃ items, convert waiting outer prefixed lexemes = .ok items) ↔
      (∀ c, .foreign c ∉ lexemes) ∧ levelAfter? outer.length lexemes = some 0 := by
  induction lexemes generalizing waiting outer prefixed with
  | nil => cases outer <;> simp [convert, levelAfter?]
  | cons lexeme rest ih =>
      cases lexeme with
      | operand text =>
          rw [convert, exists_map_eq_ok_iff, ih]
          simp [levelAfter?]
      | opening =>
          rw [convert, ih]
          simp [levelAfter?]
      | closing =>
          cases outer with
          | nil => simp [convert, levelAfter?]
          | cons enclosing outer =>
              simp only [convert]
              rw [exists_map_eq_ok_iff, ih]
              simp [levelAfter?]
      | operator operator =>
          rw [convert]
          split
          next => rw [ih]; simp [levelAfter?]
          next => rw [exists_map_eq_ok_iff, ih]; simp [levelAfter?]
      | foreign c =>
          constructor
          · intro hconvert
            obtain ⟨items, hitems⟩ := hconvert
            cases hitems
          · exact fun hnone => absurd List.mem_cons_self (hnone.1 c)

/-- Whether a character has a place in an infix text. -/
def isSupported (c : Char) : Bool :=
  c.isAlphanum || "+-*/()".toList.contains c

theorem isSupported_symbol (operator : Operator) : isSupported operator.symbol = true := by
  cases operator <;> rfl

theorem isSupported_eq_false_of_ofSymbol? {c : Char} (hc : c.isAlphanum = false)
    (hopening : c ≠ '(') (hclosing : c ≠ ')') (hsymbol : Operator.ofSymbol? c = none) :
    isSupported c = false := by
  have hne := Operator.ofSymbol?_eq_none_iff.mp hsymbol
  have hplus := hne .plus
  have hminus := hne .minus
  have htimes := hne .times
  have hdivide := hne .divide
  simp_all [isSupported, Operator.symbol]

theorem ofSymbol?_eq_none_of_isSupported {c : Char} (hc : isSupported c = false) :
    Operator.ofSymbol? c = none := by
  rw [Operator.ofSymbol?_eq_none_iff]
  rintro operator rfl
  rw [isSupported_symbol] at hc
  cases hc

/-- What a character in front of lexemes becomes: a part of an operand, a parenthesis, an
operator or a foreign character. -/
inductive Attached (lexemes : List Lexeme) : Char → List Lexeme → Prop where
  | operand {c : Char} (hc : c.isAlphanum = true) :
      Attached lexemes c (Lexeme.attachToOperand c lexemes)
  | opening : Attached lexemes '(' (.opening :: lexemes)
  | closing : Attached lexemes ')' (.closing :: lexemes)
  | operator (operator : Operator) :
      Attached lexemes operator.symbol (.operator operator :: lexemes)
  | foreign {c : Char} (hc : isSupported c = false) (hopening : c ≠ '(') (hclosing : c ≠ ')') :
      Attached lexemes c (.foreign c :: lexemes)

theorem attached_attach (c : Char) (lexemes : List Lexeme) :
    Attached lexemes c (Lexeme.attach c lexemes) := by
  cases hc : c.isAlphanum with
  | true =>
      rw [Lexeme.attach, if_pos hc]
      exact .operand hc
  | false =>
      rw [Lexeme.attach, hc, if_neg Bool.false_ne_true, Lexeme.ofSymbol]
      split
      next hopening => exact hopening ▸ .opening
      next hopening =>
        split
        next hclosing => exact hclosing ▸ .closing
        next hclosing =>
          cases hsymbol : Operator.ofSymbol? c with
          | some operator =>
              rw [Operator.eq_symbol_of_ofSymbol? hsymbol]
              exact .operator operator
          | none =>
              have hforeign := isSupported_eq_false_of_ofSymbol? hc hopening hclosing hsymbol
              exact .foreign hforeign hopening hclosing

theorem foreign_mem_attachToOperand_iff {c d : Char} {lexemes : List Lexeme} :
    .foreign d ∈ Lexeme.attachToOperand c lexemes ↔ .foreign d ∈ lexemes := by
  rw [Lexeme.attachToOperand.eq_def]
  split <;> simp

theorem levelAfter?_attachToOperand (level : Nat) (c : Char) (lexemes : List Lexeme) :
    levelAfter? level (Lexeme.attachToOperand c lexemes) = levelAfter? level lexemes := by
  rw [Lexeme.attachToOperand.eq_def]
  split <;> rfl

/-- The lexemes of a text are foreign where the text has unsupported characters. -/
theorem foreign_not_mem_ofText_iff {text : Text} :
    (∀ d, .foreign d ∉ Lexeme.ofText text) ↔ ∀ c ∈ text, isSupported c = true := by
  induction text with
  | nil => simp [Lexeme.ofText]
  | cons c rest ih =>
      have hattached := attached_attach c (Lexeme.ofText rest)
      rw [Lexeme.ofText_cons, List.forall_mem_cons, ← ih]
      generalize Lexeme.attach c (Lexeme.ofText rest) = lexemes at hattached ⊢
      cases hattached with
      | operand hc => simp [foreign_mem_attachToOperand_iff, isSupported, hc]
      | opening => simp [isSupported]
      | closing => simp [isSupported]
      | operator operator => simp [isSupported_symbol]
      | foreign hc =>
          rw [hc]
          exact ⟨fun hnone => absurd List.mem_cons_self (hnone c), fun h => nomatch h.1⟩

theorem forall_prefix_cons_iff {c : Char} {rest : Text} {P : Text → Prop} :
    (∀ front, front <+: c :: rest → P front) ↔
      P [] ∧ ∀ front, front <+: rest → P (c :: front) := by
  constructor
  · intro hall
    exact ⟨hall [] List.nil_prefix, fun front hfront =>
      hall (c :: front) (List.cons_prefix_cons.mpr ⟨rfl, hfront⟩)⟩
  · rintro ⟨hnil, hcons⟩ front hfront
    rcases List.prefix_cons_iff.mp hfront with rfl | ⟨others, rfl, hothers⟩
    · exact hnil
    · exact hcons others hothers

/-- Whether no initial segment of a text closes more parentheses than are open before the
text or opened in it, and so many are open behind the text. -/
def LeavesOpen (level after : Nat) (text : Text) : Prop :=
  (∀ front, front <+: text → front.count ')' ≤ level + front.count '(') ∧
    after + text.count ')' = level + text.count '('

variable {level after : Nat} {text : Text}

theorem leavesOpen_cons_iff {c : Char} (hopening : c ≠ '(') (hclosing : c ≠ ')') :
    LeavesOpen level after (c :: text) ↔ LeavesOpen level after text := by
  simp [LeavesOpen, forall_prefix_cons_iff, List.count_cons_of_ne, hopening, hclosing]

theorem leavesOpen_opening_cons_iff :
    LeavesOpen level after ('(' :: text) ↔ LeavesOpen (level + 1) after text := by
  simp [LeavesOpen, forall_prefix_cons_iff, Nat.add_assoc, Nat.add_comm 1]

theorem leavesOpen_closing_cons_iff :
    LeavesOpen (level + 1) after (')' :: text) ↔ LeavesOpen level after text := by
  simp [LeavesOpen, forall_prefix_cons_iff, Nat.add_right_comm, ← Nat.add_assoc]

theorem not_leavesOpen_closing_cons : ¬ LeavesOpen 0 after (')' :: text) := by
  intro hclosing
  have hfirst := hclosing.1 [')'] (by simp)
  simp at hfirst

/-- The level after a text is told by the parentheses in its initial segments. -/
theorem levelAfter?_ofText_eq_some_iff :
    levelAfter? level (Lexeme.ofText text) = some after ↔ LeavesOpen level after text := by
  induction text generalizing level with
  | nil => simp [Lexeme.ofText, levelAfter?, LeavesOpen, eq_comm]
  | cons c rest ih =>
      have hattached := attached_attach c (Lexeme.ofText rest)
      rw [Lexeme.ofText_cons]
      generalize Lexeme.attach c (Lexeme.ofText rest) = lexemes at hattached ⊢
      cases hattached with
      | operand hc =>
          have hopening : c ≠ '(' := by rintro rfl; cases hc
          have hclosing : c ≠ ')' := by rintro rfl; cases hc
          rw [levelAfter?_attachToOperand, ih, leavesOpen_cons_iff hopening hclosing]
      | opening => rw [levelAfter?, ih, leavesOpen_opening_cons_iff]
      | closing =>
          cases level with
          | zero => simp [levelAfter?, not_leavesOpen_closing_cons]
          | succ level => rw [levelAfter?, ih, leavesOpen_closing_cons_iff]
      | operator operator =>
          have hopening : operator.symbol ≠ '(' := by cases operator <;> decide
          have hclosing : operator.symbol ≠ ')' := by cases operator <;> decide
          rw [leavesOpen_cons_iff hopening hclosing, ← ih]
          rfl
      | foreign hc hopening hclosing =>
          rw [leavesOpen_cons_iff hopening hclosing, ← ih]
          rfl

/-- A text has a postfix form if all its characters are supported and its parentheses
balance. -/
theorem exists_ofInfix_iff :
    (∃ items, ofInfix text = .ok items) ↔
      (∀ c ∈ text, isSupported c = true) ∧ LeavesOpen 0 0 text := by
  rw [ofInfix, exists_convert_iff, foreign_not_mem_ofText_iff, List.length_nil,
    levelAfter?_ofText_eq_some_iff]

/-- A text has no postfix form exactly if one of its characters is no ASCII digit, no
ASCII letter, none of the four operators and no parenthesis, or one of its initial
segments closes more parentheses than it opens, or it opens more than it closes. -/
theorem ofInfix_fails_iff (text : Text) :
    (∃ obstacle, ofInfix text = .error obstacle) ↔
      (∃ c ∈ text, isSupported c = false) ∨
        (∃ front, front <+: text ∧ front.count '(' < front.count ')') ∨
        text.count ')' < text.count '(' := by
  constructor
  · rintro ⟨obstacle, hobstacle⟩
    refine Classical.byContradiction fun hnone => ?_
    simp only [not_or, not_exists, not_and, Bool.not_eq_false, Nat.not_lt] at hnone
    obtain ⟨hsupported, hfronts, hclosed⟩ := hnone
    have hbalanced := Nat.le_antisymm (hfronts text List.prefix_rfl) hclosed
    have hleaves : LeavesOpen 0 0 text :=
      ⟨fun front hfront => by simpa using hfronts front hfront, by simpa using hbalanced⟩
    obtain ⟨items, hitems⟩ := exists_ofInfix_iff.mpr ⟨hsupported, hleaves⟩
    rw [hobstacle] at hitems
    cases hitems
  · intro hcase
    cases hresult : ofInfix text with
    | error obstacle => exact ⟨obstacle, rfl⟩
    | ok items =>
        obtain ⟨hsupported, hfronts, hbalanced⟩ := exists_ofInfix_iff.mp ⟨items, hresult⟩
        rcases hcase with ⟨c, hc, hforeign⟩ | ⟨front, hfront, hmore⟩ | hopen
        · rw [hsupported c hc] at hforeign
          cases hforeign
        · have hfew := hfronts front hfront
          omega
        · omega

end Calculator.Postfix
