import Calculator.Proofs.Calculations
import Calculator.Proofs.Outlines
import Calculator.Proofs.Patterns

/-! # Lone operands

A text is one operand with at most one sign exactly if it matches the pattern of
lone operands. Of these texts the integers, the names and the names of one letter
behind a sign are tried as lone operands.
-/

namespace Calculator

namespace Text

theorem isDecimal_of_isDigit {c : Char} (hdigit : c.isDigit = true) : isDecimal c = true := by
  rw [isDecimal, digitValue?_of_isDigit hdigit]
  rfl

theorem isDecimal_eq_false_of_isAlpha {c : Char} (halpha : c.isAlpha = true) :
    isDecimal c = false := by
  have hrange := toNat_of_isAlpha halpha
  rw [isDecimal, digitValue?_eq_none (isDigit_eq_false_of_isAlpha halpha) (by omega)]
  rfl

theorem isLetter_of_isAlpha {c : Char} (halpha : c.isAlpha = true) : isLetter c = true := by
  rw [isLetter, halpha, Bool.true_or]

end Text

namespace Token

variable {token : Token}

/-- The characters of a token determine its kind. -/
theorem Shaped.eq_of_text_eq {other : Token} (hshaped : token.Shaped) (hother : other.Shaped)
    (htext : token.text = other.text) : token = other := by
  obtain ⟨c, more, rfl, _⟩ := hshaped
  obtain ⟨d, rest, rfl, _⟩ := hother
  obtain ⟨rfl, rfl⟩ := List.cons.inj htext
  rfl

theorem isOperand_eq_false_of_isSingleSign (hsingle : token.isSingleSign = true) :
    token.isOperand = false := by
  simp only [isSingleSign, Bool.and_eq_true, decide_eq_true_eq] at hsingle
  simp [isOperand, hsingle.1]

end Token

namespace Atom

theorem text_token (atom : Atom) : atom.token.text = atom.text := by
  cases atom <;> rfl

theorem isOperand_token (atom : Atom) : atom.token.isOperand = true := by
  cases atom <;> rfl

theorem shaped_token (atom : Atom) : atom.token.Shaped := by
  obtain ⟨c, more, _, htoken, hmore, _⟩ := atom.exists_run
  exact ⟨c, more, htoken, hmore⟩

/-- Nothing but the operand is a token of its text. -/
theorem ofText_text (atom : Atom) : Token.ofText atom.text = [atom.token] := by
  have htokens : Token.ofText (atom.text ++ []) = atom.token :: Token.ofText [] :=
    atom.ofText_text_append rfl
  rwa [List.append_nil] at htokens

theorem head?_text (atom : Atom) : ∃ c, atom.text.head? = some c ∧ c.isAlphanum = true := by
  obtain ⟨c, more, htext⟩ := List.exists_cons_of_ne_nil atom.text_ne_nil
  have hc : c ∈ atom.text := by simp [htext]
  exact ⟨c, by rw [htext]; rfl, isAlphanum_of_mem_text hc⟩

theorem ofText_symbol_cons_text (sign : Sign) (atom : Atom) :
    Token.ofText (sign.symbol :: atom.text) = [Token.single sign.symbol, atom.token] := by
  obtain ⟨c, hhead, hc⟩ := atom.head?_text
  rw [Token.ofText_cons_of_not_joins, atom.ofText_text]
  rw [hhead]
  change Token.joins sign.symbol c = false
  rw [Token.joins_sign, decide_eq_false_iff_not]
  rintro rfl
  cases sign <;> cases hc

end Atom

theorem Token.Shaped.exists_eq_token {token : Token} (hshaped : token.Shaped)
    (hoperand : token.isOperand = true) : ∃ atom : Atom, token = atom.token := by
  obtain ⟨atom, htext⟩ := hshaped.exists_atom hoperand
  exact ⟨atom, hshaped.eq_of_text_eq atom.shaped_token (htext.trans atom.text_token.symm)⟩

/-- A text that ends in an operand token ends in a number or a name. -/
theorem Token.exists_text_eq_append {text : Text} (before : List Token) {token : Token}
    (htokens : ofText text = before ++ [token]) (hoperand : token.isOperand = true) :
    ∃ atom : Atom, token = atom.token ∧ text = before.flatMap Token.text ++ atom.text := by
  have hshaped := shaped_of_mem_ofText text token (by simp [htokens])
  obtain ⟨atom, rfl⟩ := hshaped.exists_eq_token hoperand
  refine ⟨atom, rfl, ?_⟩
  rw [← flatMap_text_ofText text, htokens]
  simp [atom.text_token]

namespace Pattern

/-- A number, perhaps behind a sign. -/
def integer : Pattern :=
  perhaps sign * digits

/-- A number or a name, perhaps behind a sign. -/
def loneOperand : Pattern :=
  perhaps sign * operand

/-- A name, or a sign and one letter. -/
def nameOrSignedLetter : Pattern :=
  letters + sign * letter

theorem mem_perhaps_mul_iff {first second : Pattern} {text : Text} :
    text ∈ (perhaps first * second).matches' ↔
      text ∈ second.matches' ∨ text ∈ (first * second).matches' := by
  simp only [perhaps, RegularExpression.matches'_mul, RegularExpression.matches'_add,
    RegularExpression.matches'_epsilon, add_mul, one_mul, Language.mem_add]

theorem mem_sign_mul_iff {pattern : Pattern} {text : Text} :
    text ∈ (sign * pattern).matches' ↔
      ∃ (found : Sign) (rest : Text), rest ∈ pattern.matches' ∧ text = found.symbol :: rest := by
  rw [RegularExpression.matches'_mul, Language.mem_mul]
  constructor
  · rintro ⟨_, hsign, rest, hrest, rfl⟩
    obtain ⟨found, rfl⟩ := mem_sign_iff.mp hsign
    exact ⟨found, rest, hrest, rfl⟩
  · rintro ⟨found, rest, hrest, rfl⟩
    exact ⟨_, mem_sign_iff.mpr ⟨found, rfl⟩, rest, hrest, rfl⟩

/-- A lone operand is a number or a name, alone or behind one sign. -/
theorem mem_loneOperand_iff {text : Text} :
    text ∈ loneOperand.matches' ↔
      ∃ atom : Atom, text = atom.text ∨ ∃ sign : Sign, text = sign.symbol :: atom.text := by
  simp only [loneOperand, mem_perhaps_mul_iff, mem_sign_mul_iff, mem_operand_iff]
  constructor
  · rintro (⟨atom, rfl⟩ | ⟨sign, _, ⟨atom, rfl⟩, rfl⟩)
    · exact ⟨atom, Or.inl rfl⟩
    · exact ⟨atom, Or.inr ⟨sign, rfl⟩⟩
  · rintro ⟨atom, rfl | ⟨sign, rfl⟩⟩
    · exact Or.inl ⟨atom, rfl⟩
    · exact Or.inr ⟨sign, _, ⟨atom, rfl⟩, rfl⟩

end Pattern

namespace Operand

open Pattern

theorem isLone_iff {tokens : List Token} :
    isLone tokens = true ↔
      (∃ token, tokens = [token] ∧ token.isOperand = true) ∨
        ∃ sign token, tokens = [sign, token] ∧ sign.isSingleSign = true ∧
          token.isOperand = true := by
  cases tokens with
  | nil => simp [isLone, unsigned]
  | cons first rest =>
      by_cases hsigned : first.isSingleSign = true
      · have hoperand := Token.isOperand_eq_false_of_isSingleSign hsigned
        rcases rest with _ | ⟨second, _ | ⟨third, others⟩⟩ <;>
          simp [isLone, unsigned, hsigned, hoperand]
      · cases rest <;> simp [isLone, unsigned, hsigned]

theorem isLone_ofText_iff (text : Text) :
    isLone (Token.ofText text) = true ↔ text ∈ loneOperand.matches' := by
  rw [isLone_iff, mem_loneOperand_iff]
  constructor
  · rintro (⟨token, htokens, hoperand⟩ | ⟨signed, token, htokens, hsigned, hoperand⟩)
    · obtain ⟨atom, _, htext⟩ := Token.exists_text_eq_append [] htokens hoperand
      exact ⟨atom, Or.inl htext⟩
    · have hshaped := Token.shaped_of_mem_ofText text signed (by simp [htokens])
      obtain ⟨sign, hsign⟩ := hshaped.exists_sign hsigned
      obtain ⟨atom, _, htext⟩ := Token.exists_text_eq_append [signed] htokens hoperand
      exact ⟨atom, Or.inr ⟨sign, by simpa [hsign] using htext⟩⟩
  · rintro ⟨atom, rfl | ⟨sign, rfl⟩⟩
    · exact Or.inl ⟨atom.token, atom.ofText_text, atom.isOperand_token⟩
    · refine Or.inr ⟨_, atom.token, atom.ofText_symbol_cons_text sign, ?_, atom.isOperand_token⟩
      cases sign <;> rfl

end Operand

namespace Numeral

theorem exists_spells_iff {text : Text} :
    (∃ value, Spells text value) ↔ text ∈ Pattern.integer.matches' := by
  rw [Pattern.integer, Pattern.mem_perhaps_mul_iff, Pattern.mem_sign_mul_iff]
  constructor
  · rintro ⟨_, hdigits | ⟨sign, hdigits⟩⟩
    · exact Or.inl hdigits
    · exact Or.inr ⟨sign, _, hdigits, rfl⟩
  · rintro (hdigits | ⟨sign, _, hdigits, rfl⟩)
    · exact ⟨_, .plain hdigits⟩
    · exact ⟨_, .signed sign hdigits⟩

theorem dropWhile_isSign_eq_self {text : Text} (hkept : ∀ c ∈ text, c.isAlphanum = true) :
    text.dropWhile Signs.isSign = text := by
  cases text with
  | nil => rfl
  | cons c rest =>
      have hc := hkept c List.mem_cons_self
      apply List.dropWhile_cons_of_neg
      intro hsign
      rcases Signs.eq_or_eq_of_isSign hsign with rfl | rfl <;> cases hc

theorem isNumber_dropWhile_of_digits {text : Text} (hne : text ≠ [])
    (hdigits : ∀ c ∈ text, c.isDigit = true) :
    isNumber (text.dropWhile Signs.isSign) = true := by
  rw [dropWhile_isSign_eq_self fun c hc => by simp [Char.isAlphanum, hdigits c hc]]
  exact isNumber_of_digits hne hdigits

theorem isNumber_dropWhile_of_letters {text : Text} (hne : text ≠ [])
    (hletters : ∀ c ∈ text, c.isAlpha = true) :
    isNumber (text.dropWhile Signs.isSign) = false := by
  rw [dropWhile_isSign_eq_self fun c hc => by simp [Char.isAlphanum, hletters c hc]]
  exact isNumber_eq_false_of_letters hne hletters

end Numeral

namespace Operand

open Pattern

/-- A text that spells an integer stands for it. -/
theorem resolve_of_spells (table : Variables) {text : Text} {value : Int}
    (h : Numeral.Spells text value) : resolve table text = .ok (some value) := by
  have hnumber : Numeral.isNumber (text.dropWhile Signs.isSign) = true := by
    cases h with
    | plain hdigits =>
        obtain ⟨hne, hdigits⟩ := mem_digits_iff.mp hdigits
        exact Numeral.isNumber_dropWhile_of_digits hne hdigits
    | signed sign hdigits =>
        obtain ⟨hne, hdigits⟩ := mem_digits_iff.mp hdigits
        rw [List.dropWhile_cons_of_pos sign.isSign_symbol]
        exact Numeral.isNumber_dropWhile_of_digits hne hdigits
  rw [resolve, if_pos hnumber, Numeral.value, h.read?_eq]
  rfl

/-- A name is looked up as it is written, with the sign in front of it. -/
theorem resolve_of_mem (table : Variables) {text : Text}
    (htext : text ∈ nameOrSignedLetter.matches') : resolve table text = .ok (table.get? text) := by
  have hname : Numeral.isNumber (text.dropWhile Signs.isSign) = false := by
    rcases htext with hletters | hsigned
    · obtain ⟨hne, hletters⟩ := mem_letters_iff.mp hletters
      exact Numeral.isNumber_dropWhile_of_letters hne hletters
    · obtain ⟨sign, _, hletter, rfl⟩ := mem_sign_mul_iff.mp hsigned
      obtain ⟨c, hc, rfl⟩ := (selects_letter _).mp hletter
      rw [List.dropWhile_cons_of_pos sign.isSign_symbol]
      exact Numeral.isNumber_dropWhile_of_letters (List.cons_ne_nil c [])
        (List.forall_mem_singleton.mpr hc)
  rw [resolve, hname]
  rfl

theorem isTried_of_mem_integer {text : Text} (htext : text ∈ integer.matches') :
    isTried text = true := by
  -- all behind the first character are digits
  have htail : ∀ c ∈ text.drop 1, c.isDigit = true := by
    rcases mem_perhaps_mul_iff.mp htext with hdigits | hsigned
    · exact fun c hc => (mem_digits_iff.mp hdigits).2 c (List.mem_of_mem_drop hc)
    · obtain ⟨sign, digits, hdigits, rfl⟩ := mem_sign_mul_iff.mp hsigned
      exact (mem_digits_iff.mp hdigits).2
  rw [isTried, Bool.or_eq_true, List.all_eq_true, List.all_eq_true]
  exact Or.inr fun c hc => Text.isDecimal_of_isDigit (htail c (List.mem_of_mem_dropLast hc))

theorem isTried_of_mem_nameOrSignedLetter {text : Text}
    (htext : text ∈ nameOrSignedLetter.matches') : isTried text = true := by
  rw [isTried, Bool.or_eq_true, List.all_eq_true]
  rcases htext with hletters | hsigned
  · exact Or.inl fun c hc => Text.isLetter_of_isAlpha ((mem_letters_iff.mp hletters).2 c hc)
  · obtain ⟨sign, _, hletter, rfl⟩ := mem_sign_mul_iff.mp hsigned
    obtain ⟨c, _, rfl⟩ := (selects_letter _).mp hletter
    exact Or.inr rfl

/-- A name of two letters or more is not tried behind a sign, because its letters
but the last stand inside. -/
theorem exists_eq_singleton_of_isTried {sign : Sign} {letters : Text} (hne : letters ≠ [])
    (hletters : ∀ c ∈ letters, c.isAlpha = true)
    (htried : isTried (sign.symbol :: letters) = true) :
    ∃ c, letters = [c] := by
  have hsign := sign.isLetter_symbol
  rw [isTried, List.all_cons, hsign, Bool.false_and, Bool.false_or, List.all_eq_true] at htried
  obtain ⟨c, rest, rfl⟩ := List.exists_cons_of_ne_nil hne
  cases rest with
  | nil => exact ⟨c, rfl⟩
  | cons d others =>
      have hdecimal := htried c List.mem_cons_self
      rw [Text.isDecimal_eq_false_of_isAlpha (hletters c List.mem_cons_self)] at hdecimal
      cases hdecimal

/-- The lone operands that are tried are the integers and the names that are
looked up. -/
theorem mem_loneOperand_and_isTried_iff {text : Text} :
    text ∈ loneOperand.matches' ∧ isTried text = true ↔
      text ∈ integer.matches' ∨ text ∈ nameOrSignedLetter.matches' := by
  constructor
  · rintro ⟨hlone, htried⟩
    obtain ⟨atom, hform⟩ := mem_loneOperand_iff.mp hlone
    cases atom with
    | number digits hne hdigits =>
        have hmem := mem_digits_iff.mpr ⟨hne, hdigits⟩
        rw [integer, mem_perhaps_mul_iff, mem_sign_mul_iff]
        rcases hform with rfl | ⟨sign, rfl⟩
        · exact Or.inl (Or.inl hmem)
        · exact Or.inl (Or.inr ⟨sign, digits, hmem, rfl⟩)
    | name letters hne hletters =>
        right
        rcases hform with rfl | ⟨sign, rfl⟩
        · exact Or.inl (mem_letters_iff.mpr ⟨hne, hletters⟩)
        · obtain ⟨c, rfl⟩ := exists_eq_singleton_of_isTried hne hletters htried
          have hletter := (selects_letter [c]).mpr ⟨c, hletters c List.mem_cons_self, rfl⟩
          exact Or.inr (mem_sign_mul_iff.mpr ⟨sign, [c], hletter, rfl⟩)
  · rintro (hinteger | hname)
    · refine ⟨?_, isTried_of_mem_integer hinteger⟩
      rw [loneOperand, mem_perhaps_mul_iff, mem_sign_mul_iff]
      rcases mem_perhaps_mul_iff.mp hinteger with hdigits | hsigned
      · exact Or.inl (Or.inl hdigits)
      · obtain ⟨sign, digits, hdigits, rfl⟩ := mem_sign_mul_iff.mp hsigned
        exact Or.inr ⟨sign, digits, Or.inl hdigits, rfl⟩
    · refine ⟨?_, isTried_of_mem_nameOrSignedLetter hname⟩
      rw [loneOperand, mem_perhaps_mul_iff, mem_sign_mul_iff]
      rcases hname with hletters | hsigned
      · exact Or.inl (Or.inr hletters)
      · obtain ⟨sign, letter, hletter, rfl⟩ := mem_sign_mul_iff.mp hsigned
        obtain ⟨c, hc, rfl⟩ := (selects_letter _).mp hletter
        have hletters : [c] ∈ letters.matches' :=
          mem_letters_iff.mpr ⟨List.cons_ne_nil c [], List.forall_mem_singleton.mpr hc⟩
        exact Or.inr ⟨sign, [c], Or.inr hletters, rfl⟩

end Operand

end Calculator
