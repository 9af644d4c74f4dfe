import Calculator.Fault
import Calculator.Text.Blank
import Calculator.Text.Letter

/-! # ASCII characters in the classes of all scripts

The classes of digit characters, decimal digits and letters of all scripts
agree on ASCII characters with the usual ones, and no ASCII letter or digit is blank.
-/

namespace Calculator.Text

theorem toNat_of_isAlpha {c : Char} (halpha : c.isAlpha = true) :
    (65 ≤ c.toNat ∧ c.toNat ≤ 90) ∨ (97 ≤ c.toNat ∧ c.toNat ≤ 122) := by
  rcases (Bool.or_eq_true _ _).mp halpha with hupper | hlower
  · have hrange : 'A'.val ≤ c.val ∧ c.val ≤ 'Z'.val := of_decide_eq_true hupper
    exact Or.inl hrange
  · obtain ⟨hlow, hhigh⟩ := (Bool.and_eq_true _ _).mp hlower
    have hrange : 'a'.val ≤ c.val ∧ c.val ≤ 'z'.val :=
      ⟨of_decide_eq_true hlow, of_decide_eq_true hhigh⟩
    exact Or.inr hrange

theorem isBlank_eq_false_of_isAlpha {c : Char} (halpha : c.isAlpha = true) :
    isBlank c = false := by
  have hrange := toNat_of_isAlpha halpha
  simp only [isBlank, blankRanges, inRanges, List.any_cons, List.any_nil, Bool.or_false,
    Bool.or_eq_false_iff, Bool.and_eq_false_iff, decide_eq_false_iff_not]
  omega

theorem isBlank_eq_false_of_isAlphanum {c : Char} (hc : c.isAlphanum = true) :
    isBlank c = false := by
  rcases (Bool.or_eq_true _ _).mp hc with halpha | hdigit
  · exact isBlank_eq_false_of_isAlpha halpha
  · exact isBlank_eq_false_of_isDigit hdigit

/-- No decimal digit beyond ASCII has a code point below the Arabic-Indic digits. -/
theorem digitValue?_eq_none {c : Char} (hdigit : c.isDigit = false) (hlow : c.toNat < 0x660) :
    digitValue? c = none := by
  have hzeros : ∀ least ∈ scriptZeros, 0x660 ≤ least := by decide
  rw [digitValue?, hdigit, if_neg Bool.false_ne_true, Option.map_eq_none_iff,
    List.find?_eq_none]
  intro least hleast
  have hbound := hzeros least hleast
  simp only [Bool.and_eq_true, decide_eq_true_eq]
  omega

theorem isDigitForm_of_isDigit {c : Char} (hdigit : c.isDigit = true) :
    isDigitForm c = true := by
  rw [isDigitForm, isDecimal, digitValue?_of_isDigit hdigit]
  rfl

theorem isDigit_eq_false_of_isAlpha {c : Char} (halpha : c.isAlpha = true) :
    c.isDigit = false := by
  have hrange := toNat_of_isAlpha halpha
  rw [← Bool.not_eq_true, Char.isDigit_iff_toNat]
  change ¬ (48 ≤ c.toNat ∧ c.toNat ≤ 57)
  omega

theorem isDigitForm_eq_false_of_isAlpha {c : Char} (halpha : c.isAlpha = true) :
    isDigitForm c = false := by
  have hrange := toNat_of_isAlpha halpha
  have hforms : inRanges digitFormRanges c = false := by
    have hleast : ∀ range ∈ digitFormRanges, 0xB2 ≤ range.1 := by decide
    rw [inRanges, List.any_eq_false]
    intro range hmem
    have hbound := hleast range hmem
    simp only [Bool.and_eq_true, decide_eq_true_eq]
    omega
  rw [isDigitForm, isDecimal, digitValue?_eq_none (isDigit_eq_false_of_isAlpha halpha) (by omega),
    hforms]
  rfl

end Calculator.Text

namespace Calculator.Numeral

theorem isNumber_of_digits {text : Text} (hne : text ≠ [])
    (hdigits : ∀ c ∈ text, c.isDigit = true) : isNumber text = true := by
  rw [isNumber, Bool.and_eq_true, Bool.not_eq_true', List.isEmpty_eq_false_iff, List.all_eq_true]
  exact ⟨hne, fun c hc => Text.isDigitForm_of_isDigit (hdigits c hc)⟩

theorem isNumber_eq_false_of_letters {text : Text} (hne : text ≠ [])
    (hletters : ∀ c ∈ text, c.isAlpha = true) : isNumber text = false := by
  obtain ⟨c, rest, rfl⟩ := List.exists_cons_of_ne_nil hne
  have hform := Text.isDigitForm_eq_false_of_isAlpha (hletters c List.mem_cons_self)
  rw [isNumber, List.all_cons, hform, Bool.false_and, Bool.and_false]

end Calculator.Numeral

namespace Calculator.Operator

theorem isAlphanum_symbol (operator : Operator) : operator.symbol.isAlphanum = false := by
  cases operator <;> rfl

theorem eq_symbol_of_ofSymbol? {c : Char} {operator : Operator}
    (hsymbol : ofSymbol? c = some operator) : c = operator.symbol := by
  rw [ofSymbol?.eq_def] at hsymbol
  split at hsymbol <;> cases hsymbol <;> rfl

theorem ofSymbol?_eq_none_iff {c : Char} :
    ofSymbol? c = none ↔ ∀ operator : Operator, c ≠ operator.symbol := by
  constructor
  · rintro hnone operator rfl
    rw [ofSymbol?_symbol] at hnone
    cases hnone
  · intro hne
    cases hsymbol : ofSymbol? c with
    | none => rfl
    | some operator => exact absurd (eq_symbol_of_ofSymbol? hsymbol) (hne operator)

theorem ofSymbol?_eq_none_of_isAlphanum {c : Char} (hc : c.isAlphanum = true) :
    ofSymbol? c = none := by
  rw [ofSymbol?_eq_none_iff]
  rintro operator rfl
  rw [isAlphanum_symbol] at hc
  cases hc

end Calculator.Operator

namespace Calculator.Operation

theorem isAlphanum_symbol (operation : Operation) : operation.symbol.isAlphanum = false := by
  cases operation with
  | negate => rfl
  | binary operator => exact operator.isAlphanum_symbol

end Calculator.Operation
