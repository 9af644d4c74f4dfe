import Calculator.Proofs.Agreement
import Calculator.Proofs.Literals

/-! # Names behind a sign

A sign in front of a name is part of what is looked up, and no table of a session
binds a name with a sign. One letter behind a sign is still looked up, in vain; a
longer name is not even tried as a lone operand, and no expression either.
-/

namespace Calculator

open Pattern

variable {name : Text}

namespace Text

/-- A name behind a sign is read as it stands. -/
theorem plain_signed (sign : Sign) (hname : name ∈ letters.matches') :
    Plain (sign.symbol :: name) := by
  obtain ⟨atom, rfl⟩ := mem_operand_iff.mp (Or.inr hname)
  obtain ⟨c, hhead, hc⟩ := atom.head?_text
  have hblank : isBlank sign.symbol = false := by cases sign <;> decide
  refine (plain_of_mem_letters hname).cons hblank (Or.inr ?_)
  rw [hhead]
  exact Signs.isSign_eq_false_of_isAlphanum hc

end Text

namespace Pattern

/-- A name behind a sign has nothing in it that joins operands. -/
theorem signed_not_mem_expression (sign : Sign) (hname : name ∈ letters.matches') :
    sign.symbol :: name ∉ expression.matches' := by
  intro hexpression
  obtain ⟨before, run, after, hbefore, hrun, _, htext⟩ :=
    exists_joint_of_mem_expression hexpression
  obtain ⟨c, more, rfl, hletter, _⟩ := exists_cons_of_mem_joint hrun
  obtain ⟨first, others, rfl⟩ := List.exists_cons_of_ne_nil hbefore
  -- what joins stands behind something, so it stands in the name
  have hmem : c ∈ name := by
    rw [(List.cons.inj htext).2]
    simp
  rw [Text.isLetter_of_isAlpha ((mem_letters_iff.mp hname).2 c hmem)] at hletter
  cases hletter

end Pattern

namespace Statement

variable {table : Variables}

theorem classify_signed (table : Variables) (sign : Sign) (hname : name ∈ letters.matches') :
    classify table (sign.symbol :: name) = ofCalculation table (sign.symbol :: name) := by
  obtain ⟨hne, hletters⟩ := mem_letters_iff.mp hname
  let d : Infix 3 := .operand [sign] (.name name hne hletters)
  exact classify_eq_ofCalculation d.head?_text_ne d.equals_not_mem_text

/-- One letter behind a sign is looked up with the sign. -/
theorem classify_signed_letter (sign : Sign) (hname : name ∈ letters.matches')
    (hletter : name.length = 1) (hunbound : table.get? (sign.symbol :: name) = none) :
    classify table (sign.symbol :: name) = .ok (.refused .unknownVariable) := by
  obtain ⟨c, rfl⟩ := List.length_eq_one_iff.mp hletter
  have hc := (mem_letters_iff.mp hname).2 c List.mem_cons_self
  have hlooked : [sign.symbol, c] ∈ nameOrSignedLetter.matches' :=
    Or.inr (mem_sign_mul_iff.mpr ⟨sign, [c], (selects_letter [c]).mpr ⟨c, hc, rfl⟩, rfl⟩)
  rw [classify_signed table sign hname, ofCalculation_eq_ok_iff]
  exact .unbound hlooked hunbound

/-- Two letters and more behind a sign are no statement at all. -/
theorem classify_signed_word (table : Variables) (sign : Sign) (hname : name ∈ letters.matches')
    (hword : name.length ≠ 1) :
    classify table (sign.symbol :: name) = .ok (.refused .invalidExpression) := by
  obtain ⟨hne, hletters⟩ := mem_letters_iff.mp hname
  have huntried : Operand.isTried (sign.symbol :: name) = false := by
    apply Bool.eq_false_of_not_eq_true
    intro htried
    obtain ⟨c, rfl⟩ := Operand.exists_eq_singleton_of_isTried hne hletters htried
    exact hword rfl
  rw [classify_signed table sign hname, ofCalculation_eq_ok_iff]
  exact .formless huntried (signed_not_mem_expression sign hname)

end Statement

namespace Session

variable {table final : Variables} {line : Text} {lines : List Text}

/-- A session binds nothing but names, however long it runs. -/
theorem letters_of_contains_tableAfter (hrun : tableAfter table lines = .ok final)
    (hletters : ∀ name, table.contains name = true → name ∈ letters.matches') :
    ∀ name, final.contains name = true → name ∈ letters.matches' := by
  induction lines generalizing table with
  | nil =>
      cases hrun
      exact hletters
  | cons line rest ih =>
      rw [tableAfter_cons] at hrun
      obtain ⟨reply, hreply, hafter⟩ := bind_eq_ok_iff.mp hrun
      exact ih hafter (letters_of_contains_table hreply hletters)

/-- So no table that a session reaches binds what begins with a sign. -/
theorem get?_signed_eq_none (hrun : tableAfter .empty lines = .ok table) (sign : Sign)
    (name : Text) : table.get? (sign.symbol :: name) = none := by
  have hletters := letters_of_contains_tableAfter hrun nofun (sign.symbol :: name)
  rw [← Option.not_isSome_iff_eq_none]
  intro hbound
  have hsign := (mem_letters_iff.mp (hletters hbound)).2 sign.symbol List.mem_cons_self
  cases sign <;> cases hsign

/-- A line that is refused shows the diagnostic and does nothing else. -/
theorem exists_process_of_refused {why : Refusal} (hplain : line.Plain) (hne : line ≠ [])
    (hclassify : Statement.classify table line = .ok (.refused why)) :
    ∃ reply, process table line = .ok reply ∧ reply.table = table ∧
      reply.outcome = .refusal why := by
  have hline : line.squeeze ≠ [] := by
    intro hnil
    rw [Text.Plain, hnil, Signs.normalize_nil] at hplain
    exact hne hplain.symm
  rw [← hplain] at hclassify
  obtain ⟨records, _, hprocess⟩ := process_eq_map_answer hline hclassify
  exact ⟨_, hprocess, rfl, rfl⟩

/-- A name behind a sign has no value, whatever lines came before. It is refused and
leaves the table as it is. A name of one letter is an unknown variable, bound or not
without the sign; a longer name is an invalid expression. -/
theorem process_signed_name (lines : List Text) (sign : Sign) {name : Text}
    (hname : name ∈ letters.matches') :
    ∃ table reply, tableAfter .empty lines = .ok table ∧
      process table (sign.symbol :: name) = .ok reply ∧ reply.table = table ∧
      (name.length = 1 → reply.outcome =
        ⟨.refused .unknownVariable, some "Unknown variable".toList, false⟩) ∧
      (name.length ≠ 1 → reply.outcome =
        ⟨.refused .invalidExpression, some "Invalid expression".toList, false⟩) := by
  obtain ⟨table, hrun⟩ := exists_tableAfter .empty lines
  have hplain := Text.plain_signed sign hname
  have hne : sign.symbol :: name ≠ [] := List.cons_ne_nil _ _
  by_cases hletter : name.length = 1
  · have hclassify := Statement.classify_signed_letter sign hname hletter
      (get?_signed_eq_none hrun sign name)
    obtain ⟨reply, hreply, htable, houtcome⟩ := exists_process_of_refused hplain hne hclassify
    exact ⟨table, reply, hrun, hreply, htable, fun _ => houtcome, fun h => absurd hletter h⟩
  · have hclassify := Statement.classify_signed_word table sign hname hletter
    obtain ⟨reply, hreply, htable, houtcome⟩ := exists_process_of_refused hplain hne hclassify
    exact ⟨table, reply, hrun, hreply, htable, fun h => absurd h hletter, fun _ => houtcome⟩

/-- A letter that a line has bound is unknown behind a minus, and a word behind a plus is
no expression. -/
theorem process_signed_bound_letter :
    ∃ table reply other, tableAfter .empty ["a = 5".toList] = .ok table ∧
      table.get? ['a'] = some 5 ∧
      process table "-a".toList = .ok reply ∧ reply.table = table ∧
      reply.outcome = ⟨.refused .unknownVariable, some "Unknown variable".toList, false⟩ ∧
      process table "+big".toList = .ok other ∧ other.table = table ∧
      other.outcome = ⟨.refused .invalidExpression, some "Invalid expression".toList, false⟩ := by
  have hletter : "a".toList ∈ letters.matches' :=
    mem_letters_iff.mpr ⟨by decide, List.all_eq_true.mp (by decide)⟩
  have hword : "big".toList ∈ letters.matches' :=
    mem_letters_iff.mpr ⟨by decide, List.all_eq_true.mp (by decide)⟩
  have hbound : (tableAfter .empty ["a = 5".toList]).map (·.get? ['a']) = .ok (some 5) := by
    decide +kernel
  obtain ⟨table, reply, hrun, hreply, htable, hunknown, _⟩ :=
    process_signed_name ["a = 5".toList] .minus hletter
  obtain ⟨same, other, hsame, hother, hkept, _, hinvalid⟩ :=
    process_signed_name ["a = 5".toList] .plus hword
  obtain rfl : table = same := Except.ok.inj (hrun.symm.trans hsame)
  rw [hrun] at hbound
  exact ⟨table, reply, other, hrun, Except.ok.inj hbound, hreply, htable, hunknown rfl,
    hother, hkept, hinvalid (by decide)⟩

/-- A name of two letters behind a sign is not called an unknown variable. -/
theorem process_two_signed_letters :
    "ab".toList ∈ letters.matches' ∧ tableAfter .empty [] = .ok .empty ∧
      (∃ reply, process .empty "-ab".toList = .ok reply ∧
        reply.outcome = .refusal .invalidExpression) ∧
      ¬ ∃ reply, process .empty "-ab".toList = .ok reply ∧
        reply.outcome = .refusal .unknownVariable := by
  have hname : "ab".toList ∈ letters.matches' :=
    mem_letters_iff.mpr ⟨by decide, List.all_eq_true.mp (by decide)⟩
  have hshown : (process .empty "-ab".toList).map Reply.outcome =
      .ok (.refusal .invalidExpression) := by
    decide +kernel
  refine ⟨hname, rfl, map_eq_ok_iff.mp hshown, ?_⟩
  intro hunknown
  have hother := map_eq_ok_iff.mpr hunknown
  rw [hshown] at hother
  cases hother

end Session

end Calculator
