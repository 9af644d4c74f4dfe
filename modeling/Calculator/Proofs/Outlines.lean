import Calculator.Proofs.Infix
import Calculator.Proofs.Lexemes
import Calculator.Proofs.SignRuns
import Calculator.Proofs.Results
import Calculator.Proofs.Tokens
import Calculator.Statement.Classification

/-! # Outlines of accepted texts

The conversion reads lexemes where the form of expressions is checked on tokens.
The lexemes of an accepted text keep an outline of that form: operands with an
operator between each two, signs and opening parentheses in front of operands,
closing ones behind operands, and either kind behind operators.
-/

namespace Calculator

theorem Sign.isSign_symbol (sign : Sign) : Signs.isSign sign.symbol = true := by
  cases sign <;> rfl

namespace Token

variable {token : Token}

/-- Only numbers, names and signs have more than one character. -/
theorem Shaped.exists_text_eq_singleton {kind : Kind} (hshaped : Shaped token)
    (hkind : token.kind = kind) (hsingle : kind ≠ .number ∧ kind ≠ .name ∧ kind ≠ .sign) :
    ∃ c, token.text = [c] ∧ kind.Admits c := by
  obtain ⟨c, more, rfl, hmore⟩ := hshaped
  obtain ⟨hnumber, hname, hsign⟩ := hsingle
  refine ⟨c, ?_, hkind ▸ admits_ofChar c⟩
  cases more with
  | nil => rfl
  | cons d others =>
      have hjoins := hmore d List.mem_cons_self
      rw [joins, show Kind.ofChar c = kind from hkind] at hjoins
      split at hjoins
      next => exact absurd rfl hnumber
      next => exact absurd rfl hname
      next => exact absurd rfl hsign
      next => cases hjoins

theorem Shaped.isAlphanum_eq_false (hshaped : Shaped token) (hoperand : token.isOperand = false) :
    ∀ c ∈ token.text, c.isAlphanum = false := by
  intro c hc
  rw [isOperand, Bool.or_eq_false_iff, decide_eq_false_iff_not, decide_eq_false_iff_not,
    ← hshaped.ofChar_of_mem c hc] at hoperand
  rw [Char.isAlphanum, Bool.or_eq_false_iff, ← Bool.not_eq_true, ← Bool.not_eq_true]
  exact ⟨fun hc => hoperand.2 (ofChar_of_isAlpha hc), fun hc => hoperand.1 (ofChar_of_isDigit hc)⟩

theorem Shaped.beginsOperand_eq_false (hshaped : Shaped token) (hoperand : token.isOperand = false)
    (rest : Text) : Postfix.Lexeme.beginsOperand (token.text ++ rest) = false := by
  have hsymbols := hshaped.isAlphanum_eq_false hoperand
  obtain ⟨c, more, rfl, _⟩ := hshaped
  exact hsymbols c List.mem_cons_self

theorem Shaped.text_of_sign (hshaped : Shaped token) (hkind : token.kind = .sign) :
    ∃ sign count, token.text = Sign.symbol sign :: List.replicate count sign.symbol := by
  obtain ⟨c, more, rfl, hmore⟩ := hshaped
  have hadmits := admits_ofChar c
  rw [show Kind.ofChar c = .sign from hkind] at hadmits
  have hsame : more = List.replicate more.length c := by
    rw [List.eq_replicate_iff]
    refine ⟨rfl, fun d hd => ?_⟩
    have hjoins := hmore d hd
    rw [joins, show Kind.ofChar c = .sign from hkind] at hjoins
    exact (of_decide_eq_true hjoins).symm
  rcases Signs.eq_or_eq_of_isSign hadmits with rfl | rfl
  · exact ⟨.plus, more.length, congrArg _ hsame⟩
  · exact ⟨.minus, more.length, congrArg _ hsame⟩

theorem Shaped.exists_sign (hshaped : Shaped token) (hsingle : token.isSingleSign = true) :
    ∃ sign, token.text = [Sign.symbol sign] := by
  simp only [isSingleSign, Bool.and_eq_true, decide_eq_true_eq] at hsingle
  obtain ⟨sign, count, htext⟩ := hshaped.text_of_sign hsingle.1
  have hlength := hsingle.2
  rw [htext, List.length_cons, List.length_replicate] at hlength
  obtain rfl : count = 0 := by omega
  exact ⟨sign, htext⟩

theorem Shaped.exists_atom (hshaped : Shaped token) (hoperand : token.isOperand = true) :
    ∃ atom : Atom, token.text = atom.text := by
  have hadmits := hshaped.admits_of_mem
  rw [isOperand, Bool.or_eq_true, decide_eq_true_eq, decide_eq_true_eq] at hoperand
  rcases hoperand with hkind | hkind
  · rw [hkind] at hadmits
    exact ⟨.number token.text hshaped.text_ne_nil hadmits, rfl⟩
  · rw [hkind] at hadmits
    exact ⟨.name token.text hshaped.text_ne_nil hadmits, rfl⟩

end Token

namespace Postfix

/-- What an outline may go on with. -/
inductive Stage where
  /-- The first operand with its opening. -/
  | start
  /-- An operator, after closing parentheses. -/
  | operand
  /-- The next operand with its opening, after parentheses of both kinds. -/
  | operator
  deriving DecidableEq, Repr

namespace Stage

/-- The stage that goes with what the check of the form read last. -/
def ofPlace : Expression.Place → Stage
  | .start | .sign => .start
  | .operand => .operand
  | .operator => .operator

/-- Whether lexemes complete an outline from a stage on. -/
inductive CompletedBy : Stage → List Lexeme → Prop where
  | done : CompletedBy .operand []
  | opening {stage : Stage} {rest : List Lexeme} (hstage : stage ≠ .operand)
      (hrest : CompletedBy stage rest) : CompletedBy stage (.opening :: rest)
  | sign {stage : Stage} {rest : List Lexeme} (hstage : stage ≠ .operand) (sign : Sign)
      (hrest : CompletedBy stage rest) : CompletedBy stage (.operator sign.operator :: rest)
  | operand {stage : Stage} {rest : List Lexeme} (hstage : stage ≠ .operand) (atom : Atom)
      (hrest : CompletedBy .operand rest) : CompletedBy stage (.operand atom.text :: rest)
  | closing {stage : Stage} {rest : List Lexeme} (hstage : stage ≠ .start)
      (hrest : CompletedBy stage rest) : CompletedBy stage (.closing :: rest)
  | operator {rest : List Lexeme} (operator : Operator) (hrest : CompletedBy .operator rest) :
      CompletedBy .operand (.operator operator :: rest)
  | foreign {rest : List Lexeme} (c : Char) (hrest : CompletedBy .operator rest) :
      CompletedBy .operand (.foreign c :: rest)

theorem CompletedBy.operator_of_ne_operand {stage : Stage} {lexemes : List Lexeme}
    (h : stage.CompletedBy lexemes) (hstage : stage ≠ .operand) :
    CompletedBy .operator lexemes := by
  induction h with
  | done => exact absurd rfl hstage
  | opening _ _ ih => exact .opening (by decide) (ih hstage)
  | sign _ sign _ ih => exact .sign (by decide) sign (ih hstage)
  | operand _ atom hrest => exact .operand (by decide) atom hrest
  | closing _ _ ih => exact .closing (by decide) (ih hstage)
  | operator => exact absurd rfl hstage
  | foreign => exact absurd rfl hstage

/-- Whatever may follow at the start may follow wherever an operand is awaited. -/
theorem CompletedBy.of_start {stage : Stage} {lexemes : List Lexeme}
    (h : CompletedBy .start lexemes) (hstage : stage ≠ .operand) : stage.CompletedBy lexemes := by
  cases stage with
  | start => exact h
  | operand => exact absurd rfl hstage
  | operator => exact h.operator_of_ne_operand (by decide)

theorem completedBy_operand {stage : Stage} (hstage : stage ≠ .operand) {token : Token}
    (htoken : token.Shaped) (hoperand : token.isOperand = true) {rest : Text}
    (hrest : CompletedBy .operand (Lexeme.ofText rest))
    (hword : Lexeme.beginsOperand rest = false) :
    stage.CompletedBy (Lexeme.ofText (token.text ++ rest)) := by
  obtain ⟨atom, hatom⟩ := htoken.exists_atom hoperand
  rw [hatom, Lexeme.ofText_run_append atom.text_ne_nil
    (fun c hc => Atom.isAlphanum_of_mem_text hc) hword]
  exact .operand hstage atom hrest

theorem ofText_sign_cons (sign : Sign) (rest : Text) :
    Lexeme.ofText (sign.symbol :: rest) = .operator sign.operator :: Lexeme.ofText rest := by
  cases sign <;> rfl

theorem completedBy_signs_append (sign : Sign) (count : Nat) {rest : Text}
    (hrest : CompletedBy .operator (Lexeme.ofText rest)) :
    CompletedBy .operator (Lexeme.ofText (List.replicate count sign.symbol ++ rest)) := by
  induction count with
  | zero => exact hrest
  | succ count ih =>
      rw [List.replicate_succ, List.cons_append, ofText_sign_cons]
      exact .sign (by decide) sign ih

/-- A run of one sign, a star, a slash or a caret joins operands. -/
theorem completedBy_joining {token : Token} (htoken : token.Shaped)
    (hkind : token.kind = .sign ∨ token.kind = .operator) {rest : Text}
    (hrest : CompletedBy .operator (Lexeme.ofText rest)) :
    CompletedBy .operand (Lexeme.ofText (token.text ++ rest)) := by
  rcases hkind with hkind | hkind
  · -- the first sign of the run joins, and the others stand in front of the next operand
    obtain ⟨sign, count, htext⟩ := htoken.text_of_sign hkind
    rw [htext, List.cons_append, ofText_sign_cons]
    exact .operator sign.operator (completedBy_signs_append sign count hrest)
  · obtain ⟨c, htext, hc⟩ := htoken.exists_text_eq_singleton hkind (by decide)
    rw [htext]
    rcases hc with rfl | rfl | rfl
    · exact .operator .times hrest
    · exact .operator .divide hrest
    · exact .foreign '^' hrest

end Stage

end Postfix

namespace Expression.Progress

open Postfix

/-- No operand follows an operand. -/
theorem isOperand_eq_false_of_accepts {progress : Progress} {token : Token} {rest : List Token}
    (hplace : progress.place = .operand) (haccepts : progress.accepts (token :: rest) = true) :
    token.isOperand = false := by
  rw [← Bool.not_eq_true]
  intro hoperand
  rw [Token.isOperand, Bool.or_eq_true, decide_eq_true_eq, decide_eq_true_eq] at hoperand
  rcases hoperand with hkind | hkind <;> simp [accepts, next?, hplace, hkind] at haccepts

theorem beginsOperand_eq_false {progress : Progress} {tokens : List Token}
    (hshaped : ∀ token ∈ tokens, token.Shaped) (hplace : progress.place = .operand)
    (haccepts : progress.accepts tokens = true) :
    Lexeme.beginsOperand (tokens.flatMap Token.text) = false := by
  cases tokens with
  | nil => rfl
  | cons token rest =>
      have htoken := hshaped token List.mem_cons_self
      exact htoken.beginsOperand_eq_false (isOperand_eq_false_of_accepts hplace haccepts) _

/-- Beginning an operand is allowed at every stage that awaits one. -/
theorem completedBy_of_beginOperand? {stage : Stage} (hstage : stage ≠ .operand)
    {progress next : Progress} {token : Token} (htoken : token.Shaped)
    (hbegin : progress.beginOperand? token = some next) {rest : Text}
    (hrest : (Stage.ofPlace next.place).CompletedBy (Lexeme.ofText rest))
    (hword : next.place = .operand → Lexeme.beginsOperand rest = false) :
    stage.CompletedBy (Lexeme.ofText (token.text ++ rest)) := by
  unfold beginOperand? at hbegin
  split at hbegin
  next hsingle =>
    cases hbegin
    obtain ⟨sign, htext⟩ := htoken.exists_sign hsingle
    rw [htext]
    change stage.CompletedBy (Lexeme.ofText (sign.symbol :: rest))
    rw [Stage.ofText_sign_cons]
    exact .sign hstage sign (hrest.of_start hstage)
  next =>
    split at hbegin
    next hoperand =>
      cases hbegin
      exact Stage.completedBy_operand hstage htoken hoperand hrest (hword rfl)
    next => cases hbegin

/-- A token that the form allows takes the outline from the stage before it to the
stage behind it. -/
theorem completedBy_of_next? {progress next : Progress} {token : Token} (htoken : token.Shaped)
    (hnext : progress.next? token = some next) {rest : Text}
    (hrest : (Stage.ofPlace next.place).CompletedBy (Lexeme.ofText rest))
    (hword : next.place = .operand → Lexeme.beginsOperand rest = false) :
    (Stage.ofPlace progress.place).CompletedBy (Lexeme.ofText (token.text ++ rest)) := by
  have hopening (hkind : token.kind = .opening) : token.text = ['('] := by
    obtain ⟨c, htext, rfl⟩ := htoken.exists_text_eq_singleton hkind (by decide)
    exact htext
  have hclosing (hkind : token.kind = .closing) : token.text = [')'] := by
    obtain ⟨c, htext, rfl⟩ := htoken.exists_text_eq_singleton hkind (by decide)
    exact htext
  rcases progress with ⟨place, joined, signed⟩
  unfold next? at hnext
  cases place with
  | start =>
      change Stage.CompletedBy .start _
      simp only at hnext
      split at hnext
      next hkind =>
        cases hnext
        rw [hopening hkind]
        exact .opening (by decide) hrest
      next => exact completedBy_of_beginOperand? (by decide) htoken hnext hrest hword
  | sign =>
      -- the sign was read as part of the opening, so the outline is still at its start
      change Stage.CompletedBy .start _
      simp only at hnext
      split at hnext
      next hkind =>
        cases hnext
        rw [hopening hkind]
        exact .opening (by decide) hrest
      next =>
        split at hnext
        next hoperand =>
          cases hnext
          exact Stage.completedBy_operand (by decide) htoken hoperand hrest (hword rfl)
        next => cases hnext
  | operand =>
      change Stage.CompletedBy .operand _
      simp only at hnext
      split at hnext
      next hkind =>
        cases hnext
        rw [hclosing hkind]
        exact .closing (by decide) hrest
      next =>
        split at hnext
        next hkind =>
          cases hnext
          rw [Bool.or_eq_true, decide_eq_true_eq, decide_eq_true_eq] at hkind
          exact Stage.completedBy_joining htoken hkind hrest
        next => cases hnext
  | operator =>
      -- parentheses of both kinds keep the reading behind the operator
      change Stage.CompletedBy .operator _
      simp only at hnext
      split at hnext
      next hkind =>
        cases hnext
        rw [Bool.or_eq_true, decide_eq_true_eq, decide_eq_true_eq] at hkind
        rcases hkind with hkind | hkind
        · rw [hopening hkind]
          exact .opening (by decide) hrest
        · rw [hclosing hkind]
          exact .closing (by decide) hrest
      next => exact completedBy_of_beginOperand? (by decide) htoken hnext hrest hword

/-- The lexemes of accepted tokens complete the outline. -/
theorem completedBy_of_accepts {progress : Progress} {tokens : List Token}
    (hshaped : ∀ token ∈ tokens, token.Shaped) (haccepts : progress.accepts tokens = true) :
    (Stage.ofPlace progress.place).CompletedBy (Lexeme.ofText (tokens.flatMap Token.text)) := by
  induction tokens generalizing progress with
  | nil =>
      simp only [accepts, isComplete, Bool.and_eq_true, decide_eq_true_eq] at haccepts
      rw [haccepts.1.1]
      exact .done
  | cons token rest ih =>
      obtain ⟨htoken, hrest⟩ := List.forall_mem_cons.mp hshaped
      unfold accepts at haccepts
      cases hnext : progress.next? token with
      | none =>
          rw [hnext] at haccepts
          cases haccepts
      | some next =>
          rw [hnext] at haccepts
          rw [List.flatMap_cons]
          apply completedBy_of_next? htoken hnext (ih hrest haccepts)
          intro hplace
          exact beginsOperand_eq_false hrest hplace haccepts

end Expression.Progress

namespace Statement

theorem ofCommand_ne_expression (text : Text) : ofCommand text ≠ .expression := by
  unfold ofCommand
  split
  next => exact nofun
  next => split <;> exact nofun

theorem check?_ne_expression (text : Text) : Assignment.check? text ≠ some .expression := by
  rw [Assignment.check?]
  split
  next => exact nofun
  next =>
    split
    next => exact nofun
    next => split <;> exact nofun

theorem ofOperand_ne_expression (table : Variables) (text : Text) :
    ofOperand table text ≠ .ok .expression := by
  intro hoperand
  unfold ofOperand at hoperand
  split at hoperand
  next =>
    obtain ⟨value?, _, hvalue⟩ := map_eq_ok_iff.mp hoperand
    cases value? <;> cases hvalue
  next => cases hoperand

theorem accepts_of_classify {table : Variables} {text : Text}
    (hclassify : classify table text = .ok .expression) :
    Expression.accepts (Token.ofText text) = true := by
  unfold classify at hclassify
  split at hclassify
  next => exact absurd (Except.ok.inj hclassify) (ofCommand_ne_expression text)
  next =>
    split at hclassify
    next statement hcheck =>
      cases hclassify
      exact absurd hcheck (check?_ne_expression text)
    next =>
      unfold ofCalculation at hclassify
      split at hclassify
      next => exact absurd hclassify (ofOperand_ne_expression table text)
      next =>
        split at hclassify
        next haccepts => exact haccepts
        next => cases hclassify

/-- The lexemes of a text that has the form of an expression complete the outline of one. -/
theorem completedBy_of_accepts {text : Text}
    (haccepts : Expression.accepts (Token.ofText text) = true) :
    Postfix.Stage.CompletedBy .start (Postfix.Lexeme.ofText text) := by
  have hcompleted := Expression.Progress.completedBy_of_accepts
    (Token.shaped_of_mem_ofText text) haccepts
  rwa [Token.flatMap_text_ofText] at hcompleted

theorem completedBy_of_classify {table : Variables} {text : Text}
    (hclassify : classify table text = .ok .expression) :
    Postfix.Stage.CompletedBy .start (Postfix.Lexeme.ofText text) :=
  completedBy_of_accepts (accepts_of_classify hclassify)

end Statement

end Calculator
