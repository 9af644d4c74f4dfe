import Calculator.Proofs.Assignments
import Calculator.Proofs.ExpressionLanguage

/-! # Which statement a line is

Every text that is no command has one of a few forms, and its form decides what
statement it is. The forms are given by patterns and by the classes of the
characters, so that the order in which they are tried does not matter.
-/

namespace Calculator

namespace Statement

open Pattern

/-- What a text is that is neither command nor assignment. -/
inductive Calculation (table : Variables) (text : Text) : Statement → Prop where
  | spelled {value : Int} (hspells : Numeral.Spells text value) :
      Calculation table text (.operand value)
  | bound {value : Int} (hname : text ∈ nameOrSignedLetter.matches')
      (hbound : table.get? text = some value) : Calculation table text (.operand value)
  | unbound (hname : text ∈ nameOrSignedLetter.matches') (hunbound : table.get? text = none) :
      Calculation table text (.refused .unknownVariable)
  | misspelt (htried : Operand.isTried text = true) (hlone : text ∉ loneOperand.matches') :
      Calculation table text (.refused .invalidIdentifier)
  | expression (hexpression : text ∈ Pattern.expression.matches') :
      Calculation table text .expression
  | formless (huntried : Operand.isTried text = false)
      (hexpression : text ∉ Pattern.expression.matches') :
      Calculation table text (.refused .invalidExpression)

variable {table : Variables} {text : Text} {statement : Statement}

theorem exists_calculation (table : Variables) (text : Text) :
    ∃ statement, Calculation table text statement := by
  -- an operand that is tried has no other chance, not even as an expression
  by_cases htried : Operand.isTried text = true
  · by_cases hlone : text ∈ loneOperand.matches'
    · rcases Operand.mem_loneOperand_and_isTried_iff.mp ⟨hlone, htried⟩ with hinteger | hname
      · obtain ⟨value, hspells⟩ := Numeral.exists_spells_iff.mpr hinteger
        exact ⟨_, .spelled hspells⟩
      · cases hget : table.get? text with
        | none => exact ⟨_, .unbound hname hget⟩
        | some value => exact ⟨_, .bound hname hget⟩
    · exact ⟨_, .misspelt htried hlone⟩
  · by_cases hexpression : text ∈ Pattern.expression.matches'
    · exact ⟨_, .expression hexpression⟩
    · exact ⟨_, .formless (Bool.eq_false_of_not_eq_true htried) hexpression⟩

/-- A lone operand that is tried is answered with its value, if it has one. -/
theorem ofCalculation_of_resolve {value? : Option Int}
    (hform : text ∈ integer.matches' ∨ text ∈ nameOrSignedLetter.matches')
    (hvalue : Operand.resolve table text = .ok value?) :
    ofCalculation table text =
      .ok (value?.elim (.refused .unknownVariable) .operand) := by
  obtain ⟨hlone, htried⟩ := Operand.mem_loneOperand_and_isTried_iff.mpr hform
  rw [ofCalculation, htried, if_pos rfl, ofOperand, (Operand.isLone_ofText_iff text).mpr hlone,
    if_pos rfl, hvalue]
  cases value? <;> rfl

theorem Calculation.ofCalculation_eq (h : Calculation table text statement) :
    ofCalculation table text = .ok statement := by
  cases h with
  | spelled hspells =>
      have hinteger := Numeral.exists_spells_iff.mp ⟨_, hspells⟩
      exact ofCalculation_of_resolve (Or.inl hinteger) (Operand.resolve_of_spells table hspells)
  | bound hname hbound =>
      have hvalue := Operand.resolve_of_mem table hname
      rw [hbound] at hvalue
      exact ofCalculation_of_resolve (Or.inr hname) hvalue
  | unbound hname hunbound =>
      have hvalue := Operand.resolve_of_mem table hname
      rw [hunbound] at hvalue
      exact ofCalculation_of_resolve (Or.inr hname) hvalue
  | misspelt htried hlone =>
      rw [← Operand.isLone_ofText_iff] at hlone
      rw [ofCalculation, if_pos htried, ofOperand, if_neg hlone]
  | expression hexpression =>
      rw [ofCalculation, isTried_eq_false_of_mem_expression hexpression,
        (Expression.accepts_ofText_iff_mem text).mpr hexpression]
      rfl
  | formless huntried hexpression =>
      rw [← Expression.accepts_ofText_iff_mem] at hexpression
      rw [ofCalculation, huntried, if_neg Bool.false_ne_true, if_neg hexpression]

theorem ofCalculation_eq_ok_iff :
    ofCalculation table text = .ok statement ↔ Calculation table text statement := by
  refine ⟨fun hclassify => ?_, Calculation.ofCalculation_eq⟩
  obtain ⟨found, hfound⟩ := exists_calculation table text
  rw [hfound.ofCalculation_eq] at hclassify
  rwa [← Except.ok.inj hclassify]

theorem classify_eq_ofCalculation (hslash : text.head? ≠ some '/') (hequals : '=' ∉ text) :
    classify table text = ofCalculation table text := by
  rw [classify, if_neg hslash, Assignment.check?_eq_none hequals]

/-- What a text with an equals sign is. -/
theorem classify_append_equals_cons {target source : Text} (htarget : '=' ∉ target)
    (hslash : (target ++ '=' :: source).head? ≠ some '/') :
    classify table (target ++ '=' :: source) = .ok
      (if !Assignment.isTarget (Token.ofText target) then .refused .invalidIdentifier
        else if !Assignment.isSource (Token.ofText source) then .refused .invalidAssignment
        else .assignment) := by
  rw [classify, if_neg hslash, Assignment.check?_append_equals_cons htarget]

/-- The parts of an assignment are looked at one after the other. -/
theorem classify_append_equals_cons_iff {target source : Text} (htarget : '=' ∉ target)
    (hslash : (target ++ '=' :: source).head? ≠ some '/') :
    (classify table (target ++ '=' :: source) = .ok (.refused .invalidIdentifier) ↔
        target ∉ letters.matches') ∧
      (classify table (target ++ '=' :: source) = .ok .assignment ↔
        target ∈ letters.matches' ∧ source ∈ Pattern.source.matches') ∧
      (classify table (target ++ '=' :: source) = .ok (.refused .invalidAssignment) ↔
        target ∈ letters.matches' ∧ source ∉ Pattern.source.matches') := by
  rw [classify_append_equals_cons htarget hslash, ← Assignment.isTarget_ofText_iff,
    ← Assignment.isSource_ofText_iff]
  cases Assignment.isTarget (Token.ofText target) <;>
    cases Assignment.isSource (Token.ofText source) <;> simp

theorem exists_classify (table : Variables) (text : Text) :
    ∃ statement, classify table text = .ok statement := by
  by_cases hslash : text.head? = some '/'
  · exact ⟨_, by rw [classify, if_pos hslash]⟩
  by_cases hequals : '=' ∈ text
  · obtain ⟨target, source, htarget, rfl⟩ := Assignment.exists_first_equals hequals
    exact ⟨_, classify_append_equals_cons htarget hslash⟩
  · obtain ⟨statement, hcalculation⟩ := exists_calculation table text
    exact ⟨statement, (classify_eq_ofCalculation hslash hequals).trans
      hcalculation.ofCalculation_eq⟩

theorem head?_append_ne_of_mem_letters {target : Text} (rest : Text)
    (htarget : target ∈ letters.matches') :
    (target ++ rest).head? ≠ some '/' := by
  obtain ⟨hne, hletters⟩ := mem_letters_iff.mp htarget
  obtain ⟨c, more, rfl⟩ := List.exists_cons_of_ne_nil hne
  have hc := hletters c List.mem_cons_self
  intro hhead
  rw [Option.some.inj hhead] at hc
  cases hc

/-- The assignments are the texts of a target and a source. -/
theorem classify_eq_assignment_iff :
    classify table text = .ok .assignment ↔
      ∃ target source, text = target ++ '=' :: source ∧ target ∈ letters.matches' ∧
        source ∈ Pattern.source.matches' := by
  constructor
  · intro hclassify
    by_cases hslash : text.head? = some '/'
    · rw [classify, if_pos hslash, ofCommand] at hclassify
      split_ifs at hclassify <;> cases hclassify
    by_cases hequals : '=' ∈ text
    · obtain ⟨target, source, htarget, rfl⟩ := Assignment.exists_first_equals hequals
      have hparts := (classify_append_equals_cons_iff htarget hslash).2.1.mp hclassify
      exact ⟨target, source, rfl, hparts⟩
    · rw [classify_eq_ofCalculation hslash hequals, ofCalculation_eq_ok_iff] at hclassify
      cases hclassify
  · rintro ⟨target, source, rfl, htarget, hsource⟩
    have hslash := head?_append_ne_of_mem_letters ('=' :: source) htarget
    have hequals := Assignment.equals_not_mem_of_mem_letters htarget
    exact (classify_append_equals_cons_iff hequals hslash).2.1.mpr ⟨htarget, hsource⟩

namespace Calculation

theorem operand_iff {value : Int} :
    Calculation table text (.operand value) ↔
      (text ∈ integer.matches' ∧ Numeral.Spells text value) ∨
        (text ∈ nameOrSignedLetter.matches' ∧ table.get? text = some value) := by
  constructor
  · intro h
    cases h with
    | spelled hspells => exact Or.inl ⟨Numeral.exists_spells_iff.mp ⟨value, hspells⟩, hspells⟩
    | bound hname hbound => exact Or.inr ⟨hname, hbound⟩
  · rintro (⟨_, hspells⟩ | ⟨hname, hbound⟩)
    · exact .spelled hspells
    · exact .bound hname hbound

theorem unknownVariable_iff :
    Calculation table text (.refused .unknownVariable) ↔
      text ∈ nameOrSignedLetter.matches' ∧ table.get? text = none := by
  constructor
  · intro h
    cases h with
    | unbound hname hunbound => exact ⟨hname, hunbound⟩
  · rintro ⟨hname, hunbound⟩
    exact .unbound hname hunbound

theorem invalidIdentifier_iff :
    Calculation table text (.refused .invalidIdentifier) ↔
      text ∉ loneOperand.matches' ∧ Operand.isTried text = true := by
  constructor
  · intro h
    cases h with
    | misspelt htried hlone => exact ⟨hlone, htried⟩
  · rintro ⟨hlone, htried⟩
    exact .misspelt htried hlone

/-- What is neither a lone operand nor an expression has no form, unless it is
tried as a lone operand. -/
theorem invalidExpression_iff :
    Calculation table text (.refused .invalidExpression) ↔
      text ∉ integer.matches' ∧ text ∉ nameOrSignedLetter.matches' ∧
        ¬ (text ∉ loneOperand.matches' ∧ Operand.isTried text = true) ∧
        text ∉ Pattern.expression.matches' := by
  constructor
  · intro h
    cases h with
    | formless huntried hexpression =>
        simp only [huntried, Bool.false_eq_true, and_false, not_false_eq_true, true_and]
        refine ⟨fun hinteger => ?_, fun hname => ?_, hexpression⟩
        · rw [Operand.isTried_of_mem_integer hinteger] at huntried
          cases huntried
        · rw [Operand.isTried_of_mem_nameOrSignedLetter hname] at huntried
          cases huntried
  · rintro ⟨hinteger, hname, hspelt, hexpression⟩
    refine .formless (Bool.eq_false_of_not_eq_true fun htried => ?_) hexpression
    by_cases hlone : text ∈ loneOperand.matches'
    · have hform := Operand.mem_loneOperand_and_isTried_iff.mp ⟨hlone, htried⟩
      exact hform.elim hinteger hname
    · exact hspelt ⟨hlone, htried⟩

end Calculation

/-- The forms of the statements other than commands and expressions. The first
equals sign cuts an assignment, and its two parts decide about it one after the
other. Without an equals sign a text is a lone operand with a value, a name
without a value, neither of them although it is tried as one, or an expression,
and otherwise it has no form. -/
theorem classify_eq_ok_iff_form (table : Variables) (text : Text)
    (hslash : text.head? ≠ some '/') :
    (∀ target source, '=' ∉ target → text = target ++ '=' :: source →
      (classify table text = .ok (.refused .invalidIdentifier) ↔ target ∉ letters.matches') ∧
      (classify table text = .ok .assignment ↔
        target ∈ letters.matches' ∧ (source ∈ letters.matches' ∨ source ∈ literal.matches')) ∧
      (classify table text = .ok (.refused .invalidAssignment) ↔
        target ∈ letters.matches' ∧ ¬ (source ∈ letters.matches' ∨ source ∈ literal.matches'))) ∧
    ('=' ∉ text →
      (∀ value, classify table text = .ok (.operand value) ↔
        (text ∈ integer.matches' ∧ Numeral.Spells text value) ∨
          (text ∈ nameOrSignedLetter.matches' ∧ table.get? text = some value)) ∧
      (classify table text = .ok (.refused .unknownVariable) ↔
        text ∈ nameOrSignedLetter.matches' ∧ table.get? text = none) ∧
      (classify table text = .ok (.refused .invalidIdentifier) ↔
        text ∉ loneOperand.matches' ∧
          ((∀ c ∈ text, Text.isLetter c = true) ∨
            ∀ c, Text.Inside c text → Text.isDecimal c = true)) ∧
      (classify table text = .ok (.refused .invalidExpression) ↔
        text ∉ integer.matches' ∧ text ∉ nameOrSignedLetter.matches' ∧
          ¬ (text ∉ loneOperand.matches' ∧
            ((∀ c ∈ text, Text.isLetter c = true) ∨
              ∀ c, Text.Inside c text → Text.isDecimal c = true)) ∧
          text ∉ Pattern.expression.matches')) := by
  refine ⟨?_, fun hequals => ?_⟩
  · rintro target source htarget rfl
    exact classify_append_equals_cons_iff htarget hslash
  · rw [classify_eq_ofCalculation hslash hequals]
    simp only [ofCalculation_eq_ok_iff, ← Operand.isTried_iff]
    exact ⟨fun _ => Calculation.operand_iff, Calculation.unknownVariable_iff,
      Calculation.invalidIdentifier_iff, Calculation.invalidExpression_iff⟩

/-- A sign in front of a bound letter is part of the name that is looked up, while a
minus in front of a number is part of the number that is assigned. -/
theorem classify_behind_minus :
    classify (.bind .empty ['a'] 5) "-a".toList = .ok (.refused .unknownVariable) ∧
      classify .empty "a=-5".toList = .ok .assignment := by
  have hname : "-a".toList ∈ nameOrSignedLetter.matches' := by
    have hletter := (selects_letter ['a']).mpr ⟨'a', rfl, rfl⟩
    exact Or.inr (mem_sign_mul_iff.mpr ⟨.minus, ['a'], hletter, rfl⟩)
  have htarget : ['a'] ∈ letters.matches' :=
    mem_letters_iff.mpr ⟨List.cons_ne_nil _ _, List.forall_mem_singleton.mpr rfl⟩
  have hdigits : ['5'] ∈ digits.matches' :=
    mem_digits_iff.mpr ⟨List.cons_ne_nil _ _, List.forall_mem_singleton.mpr rfl⟩
  have hsource : ['-', '5'] ∈ literal.matches' :=
    mem_literal_iff.mpr (Or.inr ⟨['5'], hdigits, rfl⟩)
  constructor
  · have hforms := (classify_eq_ok_iff_form (.bind .empty ['a'] 5) "-a".toList (by decide)).2
    exact (hforms (by decide)).2.1.mpr ⟨hname, by decide⟩
  · have hforms := (classify_eq_ok_iff_form .empty "a=-5".toList (by decide)).1
    exact (hforms ['a'] ['-', '5'] (by decide) rfl).2.1.mpr ⟨htarget, Or.inr hsource⟩

end Statement

end Calculator
