import Calculator.Proofs.LoneOperands

/-! # Assignments

The first equals sign cuts an assignment into its target and its source. The
target is a name; the source is a name too, or an integer without a plus. What
the tokens of the two parts admit is what carrying out the assignment reads.
-/

namespace Calculator

theorem Numeral.read?_letters {text : Text} (hne : text ≠ [])
    (hletters : ∀ c ∈ text, c.isAlpha = true) : read? text = none := by
  have hkept : ∀ c ∈ text, isPadding c = false := by
    intro c hc
    rw [isPadding, Text.isBlank_eq_false_of_isAlpha (hletters c hc), Bool.false_and]
  obtain ⟨c, rest, rfl⟩ := List.exists_cons_of_ne_nil hne
  have hc := hletters c List.mem_cons_self
  have hrange := Text.toNat_of_isAlpha hc
  have hnone := Text.digitValue?_eq_none (Text.isDigit_eq_false_of_isAlpha hc) (by omega)
  rw [read?_eq_readSigned? hkept, readSigned?]
  · simp [readUnsigned?, hnone]
  · rintro _ heq
    rw [(List.cons.inj heq).1] at hc
    cases hc
  · rintro _ heq
    rw [(List.cons.inj heq).1] at hc
    cases hc

namespace Pattern

/-- An integer without a plus. -/
def literal : Pattern :=
  perhaps (.char '-') * digits

/-- What an assignment takes its value from: a name or an integer without a plus. -/
def source : Pattern :=
  letters + literal

theorem mem_literal_iff {text : Text} :
    text ∈ literal.matches' ↔
      text ∈ digits.matches' ∨ ∃ run, run ∈ digits.matches' ∧ text = '-' :: run := by
  rw [literal, mem_perhaps_mul_iff, RegularExpression.matches'_mul, Language.mem_mul]
  apply or_congr_right
  constructor
  · rintro ⟨_, rfl, run, hrun, rfl⟩
    exact ⟨run, hrun, rfl⟩
  · rintro ⟨run, hrun, rfl⟩
    exact ⟨['-'], rfl, run, hrun, rfl⟩

theorem mem_source_iff {text : Text} :
    text ∈ source.matches' ↔ text ∈ letters.matches' ∨ text ∈ literal.matches' :=
  Iff.rfl

theorem exists_spells_of_mem_literal {text : Text} (htext : text ∈ literal.matches') :
    ∃ value, Numeral.Spells text value := by
  rcases mem_literal_iff.mp htext with hdigits | ⟨run, hdigits, rfl⟩
  · exact ⟨_, .plain hdigits⟩
  · exact ⟨_, .signed .minus hdigits⟩

end Pattern

namespace Assignment

open Pattern

theorem isTarget_iff {tokens : List Token} :
    isTarget tokens = true ↔ ∃ token, tokens = [token] ∧ token.kind = .name := by
  rcases tokens with _ | ⟨token, _ | ⟨second, others⟩⟩ <;> simp [isTarget]

theorem isSource_iff {tokens : List Token} :
    isSource tokens = true ↔
      (∃ token, tokens = [token] ∧ token.isOperand = true) ∨
        ∃ sign token, tokens = [sign, token] ∧ sign.kind = .sign ∧ sign.text = ['-'] ∧
          token.kind = .number := by
  rcases tokens with _ | ⟨first, _ | ⟨second, _ | ⟨third, others⟩⟩⟩ <;>
    simp [isSource, and_assoc]

theorem isTarget_ofText_iff (text : Text) :
    isTarget (Token.ofText text) = true ↔ text ∈ letters.matches' := by
  rw [isTarget_iff, mem_letters_iff]
  constructor
  · rintro ⟨token, htokens, hkind⟩
    obtain ⟨atom, rfl, rfl⟩ :=
      Token.exists_text_eq_append [] htokens (by simp [Token.isOperand, hkind])
    cases atom with
    | number digits hne hdigits => cases hkind
    | name letters hne hletters => exact ⟨hne, hletters⟩
  · rintro ⟨hne, hletters⟩
    exact ⟨_, (Atom.name text hne hletters).ofText_text, rfl⟩

theorem isSource_ofText_iff (text : Text) :
    isSource (Token.ofText text) = true ↔ text ∈ source.matches' := by
  rw [isSource_iff, mem_source_iff, mem_literal_iff]
  constructor
  · rintro (⟨token, htokens, hoperand⟩ | ⟨sign, token, htokens, _, hminus, hnumber⟩)
    · obtain ⟨atom, _, htext⟩ := Token.exists_text_eq_append [] htokens hoperand
      rcases mem_operand_iff.mpr ⟨atom, htext.symm⟩ with hdigits | hletters
      · exact Or.inr (Or.inl hdigits)
      · exact Or.inl hletters
    · obtain ⟨atom, rfl, htext⟩ := Token.exists_text_eq_append [sign] htokens
        (by simp [Token.isOperand, hnumber])
      rw [List.flatMap_singleton, hminus] at htext
      cases atom with
      | number digits hne hdigits =>
          exact Or.inr (Or.inr ⟨digits, mem_digits_iff.mpr ⟨hne, hdigits⟩, htext⟩)
      | name letters hne hletters => cases hnumber
  · rintro (hletters | hdigits | ⟨run, hdigits, rfl⟩)
    · obtain ⟨hne, hletters⟩ := mem_letters_iff.mp hletters
      exact Or.inl ⟨_, (Atom.name text hne hletters).ofText_text, rfl⟩
    · obtain ⟨hne, hdigits⟩ := mem_digits_iff.mp hdigits
      exact Or.inl ⟨_, (Atom.number text hne hdigits).ofText_text, rfl⟩
    · obtain ⟨hne, hdigits⟩ := mem_digits_iff.mp hdigits
      exact Or.inr
        ⟨_, _, (Atom.number run hne hdigits).ofText_symbol_cons_text .minus, rfl, rfl, rfl⟩

/-- Every text with an equals sign is cut at the first one. -/
theorem exists_first_equals {text : Text} (hequals : '=' ∈ text) :
    ∃ target source, '=' ∉ target ∧ text = target ++ '=' :: source := by
  obtain ⟨target, source, htext, htarget⟩ := List.eq_append_cons_of_mem hequals
  exact ⟨target, source, htarget, htext⟩

/-- The tokens of the two parts decide about an assignment. -/
theorem check?_append_equals_cons {target source : Text} (htarget : '=' ∉ target) :
    check? (target ++ '=' :: source) = some
      (if !isTarget (Token.ofText target) then .refused .invalidIdentifier
        else if !isSource (Token.ofText source) then .refused .invalidAssignment
        else .assignment) := by
  have hother : ∀ token ∈ Token.ofText target, decide (token.kind ≠ .equals) = true := by
    intro token htoken
    exact decide_eq_true fun hkind => htarget (mem_text_of_kind_eq_equals htoken hkind)
  rw [check?, Token.ofText_append_equals_cons, List.dropWhile_append_of_pos hother,
    List.takeWhile_append_of_pos hother, List.dropWhile_cons_of_neg (by decide),
    List.takeWhile_cons_of_neg (by decide), List.append_nil]

theorem split?_append_equals_cons {target : Text} (source : Text) (htarget : '=' ∉ target) :
    split? (target ++ '=' :: source) = some (target, source) := by
  have hother : ∀ c ∈ target, decide (c ≠ '=') = true := by
    intro c hc
    rw [decide_eq_true_iff]
    rintro rfl
    exact htarget hc
  rw [split?, List.dropWhile_append_of_pos hother, List.takeWhile_append_of_pos hother]
  simp

/-- The value that a source supplies: an integer that it spells, or what the table
holds for the name that it is. -/
def Supplies (table : Variables) (source : Text) (value : Int) : Prop :=
  (source ∈ literal.matches' ∧ Numeral.Spells source value) ∨
    (source ∈ letters.matches' ∧ table.get? source = some value)

variable {table : Variables} {text target source : Text} {value : Int}

theorem Supplies.sourceValue?_eq (h : Supplies table source value) :
    sourceValue? table source = some value := by
  rcases h with ⟨_, hspells⟩ | ⟨hletters, hbound⟩
  · rw [sourceValue?, hspells.read?_eq]
    rfl
  · obtain ⟨hne, hletters⟩ := mem_letters_iff.mp hletters
    rw [sourceValue?, Numeral.read?_letters hne hletters]
    exact hbound

theorem Supplies.mem_source (h : Supplies table source value) :
    source ∈ Pattern.source.matches' := by
  rcases h with ⟨hliteral, _⟩ | ⟨hletters, _⟩
  · exact Or.inr hliteral
  · exact Or.inl hletters

/-- What is read from a checked source is what the source supplies. -/
theorem supplies_of_sourceValue? (hsource : source ∈ Pattern.source.matches')
    (hvalue : sourceValue? table source = some value) : Supplies table source value := by
  rcases hsource with hletters | hliteral
  · obtain ⟨hne, hall⟩ := mem_letters_iff.mp hletters
    rw [sourceValue?, Numeral.read?_letters hne hall] at hvalue
    exact Or.inr ⟨hletters, hvalue⟩
  · obtain ⟨found, hspells⟩ := exists_spells_of_mem_literal hliteral
    rw [sourceValue?, hspells.read?_eq] at hvalue
    obtain rfl : found = value := Option.some.inj hvalue
    exact Or.inl ⟨hliteral, hspells⟩

/-- A text assigns a value to a name: the name is its target, and its source
supplies the value. -/
def Assigns (table : Variables) (text name : Text) (value : Int) : Prop :=
  ∃ source, text = name ++ '=' :: source ∧ name ∈ letters.matches' ∧ Supplies table source value

theorem equals_not_mem_of_mem_letters (htarget : target ∈ letters.matches') : '=' ∉ target := by
  intro hequals
  have halpha := (mem_letters_iff.mp htarget).2 '=' hequals
  cases halpha

/-- A text assigns to one name only, and one value only. -/
theorem Assigns.unique {name other : Text} {found : Int} (h : Assigns table text name value)
    (hother : Assigns table text other found) : name = other ∧ value = found := by
  obtain ⟨source, rfl, htarget, hsupplies⟩ := h
  obtain ⟨remainder, htext, hletters, hfound⟩ := hother
  have hsplit := split?_append_equals_cons source (equals_not_mem_of_mem_letters htarget)
  rw [htext, split?_append_equals_cons _ (equals_not_mem_of_mem_letters hletters)] at hsplit
  obtain ⟨rfl, rfl⟩ := Prod.mk.inj (Option.some.inj hsplit)
  have hvalue := hfound.sourceValue?_eq
  rw [hsupplies.sourceValue?_eq] at hvalue
  exact ⟨rfl, Option.some.inj hvalue⟩

end Assignment

end Calculator
