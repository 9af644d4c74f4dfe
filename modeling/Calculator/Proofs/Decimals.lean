import Calculator.Proofs.Patterns

/-! # Decimal texts

A text spells a number by its digits, perhaps behind a sign. Of the texts that spell
a number one is canonical, and that is the one that is written.
-/

namespace Calculator.Numeral

/-- A text spells an integer: the number of its digits, or the number or its
opposite behind a sign. -/
inductive Spells : Text → Int → Prop where
  | plain {digits : Text} (hdigits : digits ∈ Pattern.digits.matches') :
      Spells digits (Nat.ofDigitChars 10 digits 0)
  | signed (sign : Sign) {digits : Text} (hdigits : digits ∈ Pattern.digits.matches') :
      Spells (sign.symbol :: digits) (sign.applyTo (Nat.ofDigitChars 10 digits 0))

/-- A run of ASCII digits behind a plus is read as the number that they spell. -/
theorem read?_plus_digits {digits : Text} (hne : digits ≠ [])
    (hdigits : ∀ c ∈ digits, c.isDigit = true) :
    read? ('+' :: digits) = some (Nat.ofDigitChars 10 digits 0 : Int) := by
  have hkept : ∀ c ∈ '+' :: digits, isPadding c = false := by
    refine List.forall_mem_cons.mpr ⟨by decide, fun c hmem => ?_⟩
    exact isPadding_eq_false_of_isDigit (hdigits c hmem)
  rw [read?_eq_readSigned? hkept, readSigned?, readUnsigned?_digits hne hdigits]
  rfl

theorem Spells.read?_eq {text : Text} {value : Int} (h : Spells text value) :
    read? text = some value := by
  cases h with
  | plain hdigits =>
      obtain ⟨hne, hdigits⟩ := Pattern.mem_digits_iff.mp hdigits
      exact read?_digits hne hdigits
  | signed sign hdigits =>
      obtain ⟨hne, hdigits⟩ := Pattern.mem_digits_iff.mp hdigits
      cases sign with
      | plus => exact read?_plus_digits hne hdigits
      | minus => exact read?_minus_digits hne hdigits

/-- A text spells one integer only. -/
theorem Spells.unique {text : Text} {value other : Int} (h : Spells text value)
    (hother : Spells text other) : value = other :=
  Option.some.inj (h.read?_eq.symm.trans hother.read?_eq)

/-- A text that spells a number without needless zeros in front and without a sign of
zero. -/
inductive Canonical : Text → Prop where
  | zero : Canonical ['0']
  | positive {digits : Text} (hdigits : digits ∈ Pattern.digits.matches')
      (hlead : digits.head? ≠ some '0') : Canonical digits
  | negative {digits : Text} (hdigits : digits ∈ Pattern.digits.matches')
      (hlead : digits.head? ≠ some '0') : Canonical ('-' :: digits)

theorem digitChar_sub_zero {c : Char} (hc : c.isDigit = true) :
    Nat.digitChar (c.toNat - '0'.toNat) = c := by
  have hrange : 48 ≤ c.toNat ∧ c.toNat ≤ 57 := Char.isDigit_iff_toNat.mp hc
  have hdigits : ∀ n < 10, Nat.digitChar n = Char.ofNat (n + 48) := by decide
  change Nat.digitChar (c.toNat - 48) = c
  rw [hdigits _ (by omega), Nat.sub_add_cancel hrange.1, Char.ofNat_toNat]

/-- The digits of a number that is not zero begin with no zero. -/
theorem head?_toDigits_ne {n : Nat} (hn : 0 < n) : (Nat.toDigits 10 n).head? ≠ some '0' := by
  induction n using Nat.strong_induction_on with
  | h n ih =>
      rw [Nat.toDigits_eq_if (by decide)]
      split
      next hsmall =>
        have hdigits : ∀ m < 10, 0 < m → Nat.digitChar m ≠ '0' := by decide
        exact fun hhead => hdigits n hsmall hn (Option.some.inj hhead)
      next hlarge =>
        rw [List.head?_append_of_ne_nil _ Nat.toDigits_ne_nil]
        exact ih (n / 10) (by omega) (by omega)

/-- Digits that begin with no zero are the ones that are written of their number. -/
theorem toDigits_ofDigitChars {digits : Text} (hne : digits ≠ [])
    (hdigits : ∀ c ∈ digits, c.isDigit = true) (hlead : digits.head? ≠ some '0') :
    0 < Nat.ofDigitChars 10 digits 0 ∧
      Nat.toDigits 10 (Nat.ofDigitChars 10 digits 0) = digits := by
  -- from the end, because the last digit is the remainder
  induction digits using List.reverseRecOn with
  | nil => exact absurd rfl hne
  | append_singleton digits c ih =>
      have hc := hdigits c (List.mem_append_right digits List.mem_cons_self)
      have hrange : 48 ≤ c.toNat ∧ c.toNat ≤ 57 := Char.isDigit_iff_toNat.mp hc
      have hzero : '0'.toNat = 48 := rfl
      have hchar := digitChar_sub_zero hc
      rw [Nat.ofDigitChars_append, Nat.ofDigitChars_cons, Nat.ofDigitChars_nil]
      by_cases hnil : digits = []
      · subst hnil
        have hpositive : c.toNat ≠ 48 := by
          intro hcode
          rw [hcode] at hchar
          exact hlead (congrArg some hchar.symm)
        rw [Nat.ofDigitChars_nil, Nat.mul_zero, Nat.zero_add]
        refine ⟨by omega, ?_⟩
        rw [Nat.toDigits_of_lt_base (by omega), hchar, List.nil_append]
      · rw [List.head?_append_of_ne_nil _ hnil] at hlead
        have hall : ∀ d ∈ digits, d.isDigit = true :=
          fun d hd => hdigits d (List.mem_append_left _ hd)
        obtain ⟨hpositive, hrest⟩ := ih hnil hall hlead
        refine ⟨by omega, ?_⟩
        rw [Nat.toDigits_eq_if (by decide), if_neg (by omega), Nat.mul_add_div (by decide),
          Nat.div_eq_of_lt (by omega), Nat.add_zero, hrest, Nat.mul_add_mod,
          Nat.mod_eq_of_lt (by omega), hchar]

theorem mem_digits_toDigits (n : Nat) : Nat.toDigits 10 n ∈ Pattern.digits.matches' :=
  Pattern.mem_digits_iff.mpr ⟨Nat.toDigits_ne_nil,
    fun _ hc => Nat.isDigit_of_mem_toDigits (by decide) (by decide) hc⟩

theorem canonical_write (value : Int) : Canonical (write value) := by
  cases value with
  | ofNat n =>
      rcases Nat.eq_zero_or_pos n with rfl | hn
      · exact .zero
      · exact .positive (mem_digits_toDigits n) (head?_toDigits_ne hn)
  | negSucc n => exact .negative (mem_digits_toDigits (n + 1)) (head?_toDigits_ne n.succ_pos)

theorem spells_write (value : Int) : Spells (write value) value := by
  cases value with
  | ofNat n =>
      have hspells := Spells.plain (mem_digits_toDigits n)
      rwa [Nat.ofDigitChars_toDigits (by decide) (by decide)] at hspells
  | negSucc n =>
      have hspells := Spells.signed .minus (mem_digits_toDigits (n + 1))
      rwa [Nat.ofDigitChars_toDigits (by decide) (by decide)] at hspells

theorem Canonical.eq_write {text : Text} (h : Canonical text) : ∃ value, text = write value := by
  cases h with
  | zero => exact ⟨0, rfl⟩
  | positive hdigits hlead =>
      obtain ⟨hne, hdigits⟩ := Pattern.mem_digits_iff.mp hdigits
      exact ⟨.ofNat _, (toDigits_ofDigitChars hne hdigits hlead).2.symm⟩
  | @negative digits hdigits hlead =>
      obtain ⟨hne, hdigits⟩ := Pattern.mem_digits_iff.mp hdigits
      obtain ⟨hpositive, hwritten⟩ := toDigits_ofDigitChars hne hdigits hlead
      refine ⟨.negSucc (Nat.ofDigitChars 10 digits 0 - 1), ?_⟩
      rw [write, Nat.sub_add_cancel hpositive, hwritten]

/-- Of the texts that spell a number one is canonical, and that one is written. -/
theorem eq_write_iff {text : Text} {value : Int} :
    text = write value ↔ Canonical text ∧ Spells text value := by
  constructor
  · rintro rfl
    exact ⟨canonical_write value, spells_write value⟩
  · rintro ⟨hcanonical, hspells⟩
    obtain ⟨found, rfl⟩ := hcanonical.eq_write
    rw [(spells_write found).unique hspells]

end Calculator.Numeral
