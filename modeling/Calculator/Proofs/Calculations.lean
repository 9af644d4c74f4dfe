import Calculator.Proofs.Answers
import Calculator.Proofs.Precedence
import Calculator.Proofs.Recognition
import Mathlib.Data.List.TakeWhile

/-! # Lines that hold arithmetic

A line whose text derives as arithmetic with a binary operator is neither a
command nor an assignment nor a lone operand. If the form of expressions allows
its signs, the session answers with what the text denotes.
-/

namespace Calculator

theorem Operator.isLetter_symbol (operator : Operator) :
    Text.isLetter operator.symbol = false := by
  cases operator <;> decide +kernel

theorem Operator.isDecimal_symbol (operator : Operator) :
    Text.isDecimal operator.symbol = false := by
  cases operator <;> decide +kernel

theorem Sign.isLetter_symbol (sign : Sign) : Text.isLetter sign.symbol = false := by
  cases sign <;> decide +kernel

theorem Sign.isDecimal_symbol (sign : Sign) : Text.isDecimal sign.symbol = false := by
  cases sign <;> decide +kernel

theorem Connective.exists_operator {level : Nat} (connective : Connective level) :
    ∃ operator : Operator, connective.symbol = operator.symbol :=
  ⟨connective.operator, connective.symbol_operator.symm⟩

theorem Sign.symbol_ne_slash (sign : Sign) : sign.symbol ≠ '/' := by
  cases sign <;> decide

namespace Assignment

/-- A token of the kind of the equals sign is an equals sign in the text. -/
theorem mem_text_of_kind_eq_equals {text : Text} {token : Token}
    (htoken : token ∈ Token.ofText text) (hkind : token.kind = .equals) : '=' ∈ text := by
  obtain ⟨c, more, rfl, _⟩ := Token.shaped_of_mem_ofText text token htoken
  have hadmits := Token.admits_ofChar c
  rw [show Token.Kind.ofChar c = .equals from hkind] at hadmits
  rw [← Token.flatMap_text_ofText text, List.mem_flatMap]
  exact ⟨_, htoken, hadmits ▸ List.mem_cons_self⟩

theorem check?_eq_none {text : Text} (hequals : '=' ∉ text) : check? text = none := by
  have hnone : (Token.ofText text).dropWhile (fun token => decide (token.kind ≠ .equals)) = [] := by
    rw [List.dropWhile_eq_nil_iff]
    intro token htoken
    exact decide_eq_true fun hkind => hequals (mem_text_of_kind_eq_equals htoken hkind)
  rw [check?, hnone]

end Assignment

namespace Infix

theorem text_ne_nil {level : Nat} (d : Infix level) : d.text ≠ [] := by
  induction d with
  | operand signs atom => exact List.append_ne_nil_of_right_ne_nil _ atom.text_ne_nil
  | group signs body => exact List.append_ne_nil_of_right_ne_nil _ (List.cons_ne_nil _ _)
  | loosen inner ih => exact ih
  | join connective left right => exact List.append_ne_nil_of_right_ne_nil _ (List.cons_ne_nil _ _)

/-- A binary operator stands strictly inside the text. -/
theorem exists_text_eq_of_isJoined {level : Nat} {d : Infix level}
    (hjoined : d.isJoined = true) :
    ∃ before operator after, before ≠ [] ∧ after ≠ [] ∧
      d.text = before ++ Operator.symbol operator :: after := by
  induction d with
  | operand signs atom => cases hjoined
  | group signs body ih =>
      obtain ⟨before, operator, after, _, _, htext⟩ := ih hjoined
      refine ⟨signs.map Sign.symbol ++ '(' :: before, operator, after ++ [')'], ?_, ?_, ?_⟩
      · exact List.append_ne_nil_of_right_ne_nil _ (List.cons_ne_nil _ _)
      · exact List.append_ne_nil_of_right_ne_nil _ (List.cons_ne_nil _ _)
      · simp only [text, htext, List.append_assoc, List.cons_append]
  | loosen inner ih => exact ih hjoined
  | join connective left right =>
      refine ⟨left.text, connective.operator, right.text, left.text_ne_nil, right.text_ne_nil, ?_⟩
      rw [connective.symbol_operator, text]

theorem isAlphanum_or_of_mem_text {level : Nat} {d : Infix level} {c : Char}
    (hc : c ∈ d.text) :
    c.isAlphanum = true ∨ c = '(' ∨ c = ')' ∨ ∃ operator : Operator, c = operator.symbol := by
  have hsigns {signs : List Sign} (hmem : c ∈ signs.map Sign.symbol) :
      ∃ operator : Operator, c = operator.symbol := by
    obtain ⟨sign, _, rfl⟩ := List.mem_map.mp hmem
    exact ⟨sign.operator, sign.symbol_operator.symm⟩
  induction d with
  | operand signs atom =>
      rcases List.mem_append.mp hc with hsign | hatom
      · exact Or.inr (Or.inr (Or.inr (hsigns hsign)))
      · exact Or.inl (Atom.isAlphanum_of_mem_text hatom)
  | group signs body ih =>
      simp only [text, List.mem_append, List.mem_cons, List.not_mem_nil, or_false] at hc
      rcases hc with hsign | rfl | hbody | rfl
      · exact Or.inr (Or.inr (Or.inr (hsigns hsign)))
      · exact Or.inr (Or.inl rfl)
      · exact ih hbody
      · exact Or.inr (Or.inr (Or.inl rfl))
  | loosen inner ih => exact ih hc
  | join connective left right ihleft ihright =>
      simp only [text, List.mem_append, List.mem_cons] at hc
      rcases hc with hleft | rfl | hright
      · exact ihleft hleft
      · exact Or.inr (Or.inr (Or.inr connective.exists_operator))
      · exact ihright hright

theorem equals_not_mem_text {level : Nat} (d : Infix level) : '=' ∉ d.text := by
  intro hmem
  rcases isAlphanum_or_of_mem_text hmem with halphanum | heq | heq | ⟨operator, heq⟩
  · cases halphanum
  · cases heq
  · cases heq
  · cases operator <;> cases heq

theorem head?_text_ne {level : Nat} (d : Infix level) : d.text.head? ≠ some '/' := by
  induction d with
  | operand signs atom =>
      intro hhead
      cases signs with
      | nil =>
          have halphanum := Atom.isAlphanum_of_mem_text (List.mem_of_head? hhead)
          cases halphanum
      | cons sign rest => exact sign.symbol_ne_slash (Option.some.inj hhead)
  | group signs body =>
      intro hhead
      cases signs with
      | nil => cases Option.some.inj hhead
      | cons sign rest => exact sign.symbol_ne_slash (Option.some.inj hhead)
  | loosen inner ih => exact ih
  | join connective left right ihleft =>
      rwa [text, List.head?_append_of_ne_nil _ left.text_ne_nil]

end Infix

/-- A character that is neither the first nor the last of a text. -/
def Text.Inside (c : Char) (text : Text) : Prop :=
  ∃ before after, before ≠ [] ∧ after ≠ [] ∧ text = before ++ c :: after

theorem Text.inside_iff {c : Char} {text : Text} :
    Inside c text ↔ c ∈ (text.drop 1).dropLast := by
  constructor
  · rintro ⟨before, after, hbefore, hafter, rfl⟩
    obtain ⟨first, others, rfl⟩ := List.exists_cons_of_ne_nil hbefore
    rw [List.cons_append, List.drop_one, List.tail_cons,
      List.dropLast_append_of_ne_nil (List.cons_ne_nil _ _), List.dropLast_cons_of_ne_nil hafter]
    exact List.mem_append_right _ List.mem_cons_self
  · intro hc
    cases text with
    | nil => cases hc
    | cons first rest =>
        rw [List.drop_one, List.tail_cons] at hc
        have hne : rest ≠ [] := by
          rintro rfl
          cases hc
        obtain ⟨before, after, hrest⟩ := List.append_of_mem hc
        refine ⟨first :: before, after ++ [rest.getLast hne], by simp, by simp, ?_⟩
        calc first :: rest
          _ = first :: (rest.dropLast ++ [rest.getLast hne]) := by rw [List.dropLast_append_getLast]
          _ = first :: before ++ c :: (after ++ [rest.getLast hne]) := by rw [hrest]; simp

/-- A text is tried as a lone operand for its letters or for the decimal digits
inside it. -/
theorem Operand.isTried_iff (text : Text) :
    isTried text = true ↔
      (∀ c ∈ text, Text.isLetter c = true) ∨ ∀ c, Text.Inside c text → Text.isDecimal c = true := by
  simp only [isTried, Bool.or_eq_true, List.all_eq_true, Text.inside_iff]

/-- A character inside a text that is neither letter nor digit keeps the text from
being tried as a lone operand. -/
theorem Operand.isTried_eq_false {before after : Text} {c : Char}
    (hletter : Text.isLetter c = false) (hdecimal : Text.isDecimal c = false)
    (hbefore : before ≠ []) (hafter : after ≠ []) : isTried (before ++ c :: after) = false := by
  rw [← Bool.not_eq_true, isTried_iff]
  rintro (hletters | hdecimals)
  · rw [hletters c (List.mem_append_right _ List.mem_cons_self)] at hletter
    cases hletter
  · rw [hdecimals c ⟨before, after, hbefore, hafter, rfl⟩] at hdecimal
    cases hdecimal

namespace Infix

theorem isTried_text {d : Infix 1} (hjoined : d.isJoined = true) :
    Operand.isTried d.text = false := by
  obtain ⟨before, operator, after, hbefore, hafter, htext⟩ := exists_text_eq_of_isJoined hjoined
  rw [htext]
  exact Operand.isTried_eq_false operator.isLetter_symbol operator.isDecimal_symbol hbefore hafter

/-- Only the form of expressions decides about a derived text with an operator. -/
theorem classify_text (table : Variables) {d : Infix 1} (hjoined : d.isJoined = true) :
    Statement.classify table d.text =
      if Expression.accepts (Token.ofText d.text) then .ok .expression
      else .ok (.refused .invalidExpression) := by
  rw [Statement.classify, if_neg d.head?_text_ne,
    Assignment.check?_eq_none d.equals_not_mem_text, Statement.ofCalculation,
    isTried_text hjoined, if_neg Bool.false_ne_true]

theorem outcomeOfExpression_text (table : Variables) (d : Infix 1) :
    Session.outcomeOfExpression table d.text =
      Session.outcomeOfValue (Postfix.write d.tree.postorder) (d.value table) := by
  rw [Session.outcomeOfExpression, ofInfix_text, ← eval_tree, ← Expr.evaluate_postorder]

/-- What a text denotes decides its outcome, and no text that denotes something
or has a fault of its own is refused as no expression. -/
theorem exists_outcomeOfValue_eq (table : Variables) (d : Infix 1) (stream : Text) :
    ∃ outcome, Session.outcomeOfValue stream (d.value table) = .ok outcome ∧
      outcome ≠ .refusal .invalidExpression ∧
      ((∃ value shown, d.value table = .ok value ∧ Numeral.Canonical shown ∧
          Numeral.Spells shown value ∧ outcome = ⟨.ok, some shown, false⟩) ∨
        (∃ name, d.value table = .error (.unbound name) ∧ table.get? name = none ∧
          outcome = ⟨.refused .invalidIdentifier, some "Invalid identifier".toList, false⟩) ∨
        (d.value table = .error .divisionByZero ∧
          outcome = ⟨.proceed, some "Error: division by zero".toList, true⟩)) := by
  cases hvalue : d.value table with
  | ok value =>
      obtain ⟨shown, hcanonical, hspells, hnumber⟩ := Outcome.exists_number_eq .ok value
      exact ⟨_, rfl, nofun, Or.inl ⟨value, shown, rfl, hcanonical, hspells, hnumber⟩⟩
  | error fault =>
      rcases value_eq_error hvalue with rfl | ⟨name, rfl, hget⟩
      · exact ⟨_, rfl, nofun, Or.inr (Or.inr ⟨rfl, rfl⟩)⟩
      · exact ⟨_, rfl, nofun, Or.inr (Or.inl ⟨name, rfl, hget, rfl⟩)⟩

/-- A line whose text, without blanks and redundant signs, derives as arithmetic
with a binary operator is no command, no assignment and no lone operand. It is
refused as no expression exactly if an operand has two signs in its opening or the
last operand has one. Otherwise it shows the canonical text of the number that the
text denotes, or the first fault that is met from left to right: an unbound name or
a zero divisor. -/
theorem process_eq_of_normalize_eq (table : Variables) {line : Text} {d : Infix 1}
    (htext : Signs.normalize line.squeeze = d.text) (hjoined : d.isJoined = true) :
    d.text.head? ≠ some '/' ∧ Assignment.check? d.text = none ∧
      Operand.isTried d.text = false ∧
      ∃ reply, Session.process table line = .ok reply ∧
        (reply.outcome = ⟨.refused .invalidExpression, some "Invalid expression".toList, false⟩ ↔
          d.Oversigned) ∧
        (¬ d.Oversigned →
          (∃ value shown, d.value table = .ok value ∧ Numeral.Canonical shown ∧
            Numeral.Spells shown value ∧ reply.outcome = ⟨.ok, some shown, false⟩) ∨
          (∃ name, d.value table = .error (.unbound name) ∧ table.get? name = none ∧
            reply.outcome =
              ⟨.refused .invalidIdentifier, some "Invalid identifier".toList, false⟩) ∨
          (d.value table = .error .divisionByZero ∧
            reply.outcome = ⟨.proceed, some "Error: division by zero".toList, true⟩)) := by
  have hcheck := Assignment.check?_eq_none d.equals_not_mem_text
  refine ⟨d.head?_text_ne, hcheck, isTried_text hjoined, ?_⟩
  have hsettled : Signs.Settled d.text := htext ▸ Signs.settled_normalize _
  have hline : line.squeeze ≠ [] := by
    intro hnil
    rw [hnil, show Signs.normalize [] = [] by rw [Signs.normalize]; rfl] at htext
    exact d.text_ne_nil htext.symm
  have houtcome := Session.map_outcome_process table hline
  have haccepts := d.accepts_ofText_text_iff hsettled
  rw [htext, classify_text table hjoined] at houtcome
  -- the form of expressions refuses the line exactly if it is oversigned
  by_cases hover : d.Oversigned
  · rw [if_neg fun h => (haccepts.mp h).2 hover] at houtcome
    obtain ⟨reply, hreply, hrefusal⟩ := map_eq_ok_iff.mp houtcome
    exact ⟨reply, hreply, ⟨fun _ => hover, fun _ => hrefusal⟩, fun h => absurd hover h⟩
  · rw [if_pos (haccepts.mpr ⟨hjoined, hover⟩)] at houtcome
    change _ = (Session.calculate table d.text).map _ at houtcome
    rw [Session.map_outcome_calculate, outcomeOfExpression_text] at houtcome
    obtain ⟨outcome, hvalue, hne, hshown⟩ :=
      exists_outcomeOfValue_eq table d (Postfix.write d.tree.postorder)
    rw [hvalue] at houtcome
    obtain ⟨reply, hreply, rfl⟩ := map_eq_ok_iff.mp houtcome
    exact ⟨reply, hreply, ⟨fun h => absurd h hne, fun h => absurd h hover⟩, fun _ => hshown⟩

/-- A sum with blanks, redundant signs and a sign in front of parentheses. -/
theorem process_signed_group :
    ∃ d : Infix 1, Signs.normalize (Text.squeeze "2 * -(1 - --a) - 3".toList) = d.text ∧
      d.isJoined = true ∧ ∃ reply,
        Session.process (Variables.empty.bind ['a'] 4) "2 * -(1 - --a) - 3".toList = .ok reply ∧
        reply.outcome = ⟨.ok, some "3".toList, false⟩ := by
  let one : Atom := .number ['1'] (List.cons_ne_nil _ _) (List.forall_mem_singleton.mpr rfl)
  let two : Atom := .number ['2'] (List.cons_ne_nil _ _) (List.forall_mem_singleton.mpr rfl)
  let three : Atom := .number ['3'] (List.cons_ne_nil _ _) (List.forall_mem_singleton.mpr rfl)
  let a : Atom := .name ['a'] (List.cons_ne_nil _ _) (List.forall_mem_singleton.mpr rfl)
  let difference : Infix 1 :=
    .join .minus (.loosen (.loosen (.operand [] one))) (.loosen (.operand [] a))
  let product : Infix 2 := .join .times (.loosen (.operand [] two)) (.group [.minus] difference)
  let d : Infix 1 := .join .minus (.loosen product) (.loosen (.operand [] three))
  have htext : Signs.normalize (Text.squeeze "2 * -(1 - --a) - 3".toList) = d.text := by
    decide +kernel
  have hfew : ¬ d.Oversigned := by
    simp [d, product, difference, Oversigned, openings, Sign.symbol]
  have hvalue : d.value (Variables.empty.bind ['a'] 4) = .ok 3 := by decide
  obtain ⟨_, _, _, reply, hreply, _, hshown⟩ :=
    process_eq_of_normalize_eq (.bind .empty ['a'] 4) htext rfl
  refine ⟨d, htext, rfl, reply, hreply, ?_⟩
  rcases hshown hfew with
    ⟨value, shown, hfound, hcanonical, hspells, hnumber⟩ | ⟨_, hfound, _⟩ | ⟨hfound, _⟩
  · rw [hvalue] at hfound
    rw [hnumber, Numeral.eq_write_iff.mpr ⟨hcanonical, hspells⟩, ← Except.ok.inj hfound]
    rfl
  · rw [hvalue] at hfound
    cases hfound
  · rw [hvalue] at hfound
    cases hfound

end Infix

end Calculator
