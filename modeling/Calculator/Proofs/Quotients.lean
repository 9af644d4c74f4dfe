import Calculator.Proofs.Normalization
import Calculator.Proofs.Trees

/-! # Quotients

A quotient is rounded toward zero: it leaves a rest that is smaller than the divisor
and does not lie on the other side of zero than the dividend. Only one number leaves
such a rest, and it changes its sign with the dividend and with the divisor.
-/

namespace Calculator

/-- A number leaves of the dividend a rest that is smaller than the divisor, and is
zero or has the sign of the dividend. -/
def IsQuotient (dividend divisor quotient : Int) : Prop :=
  ∃ rest, dividend = quotient * divisor + rest ∧ rest.natAbs < divisor.natAbs ∧
    (rest = 0 ∨ rest.sign = dividend.sign)

variable {dividend divisor quotient : Int}

theorem isQuotient_tdiv (hdivisor : divisor ≠ 0) :
    IsQuotient dividend divisor (dividend.tdiv divisor) := by
  refine ⟨dividend.tmod divisor, (Int.tdiv_mul_add_tmod dividend divisor).symm, ?_, ?_⟩
  · rw [Int.natAbs_tmod]
    exact Nat.mod_lt _ (Int.natAbs_pos.mpr hdivisor)
  · by_cases hdvd : divisor ∣ dividend
    · exact Or.inl (Int.tmod_eq_zero_of_dvd hdvd)
    · right
      rw [Int.sign_tmod, if_neg hdvd]

theorem IsQuotient.divisor_ne_zero (h : IsQuotient dividend divisor quotient) : divisor ≠ 0 := by
  rintro rfl
  obtain ⟨rest, _, hrest, _⟩ := h
  exact Nat.not_lt_zero _ hrest

/-- No other number than the rounded one leaves such a rest. -/
theorem IsQuotient.eq_tdiv (h : IsQuotient dividend divisor quotient) :
    quotient = dividend.tdiv divisor := by
  have hdivisor := h.divisor_ne_zero
  obtain ⟨rest, hdividend, hrest, hsign⟩ := h
  have hsum : rest + divisor * quotient = dividend := by
    rw [hdividend, Int.mul_comm, Int.add_comm]
  -- the rest lies on the side of the dividend, where the division is unique
  rcases Int.le_total 0 dividend with hside | hside
  · have hnonneg : 0 ≤ rest := by
      rcases hsign with rfl | hsign
      · exact Int.le_refl 0
      · rwa [← Int.sign_nonneg_iff, hsign, Int.sign_nonneg_iff]
    have hunique := (Int.tdiv_tmod_unique hside hdivisor).mpr ⟨hsum, hnonneg, by omega⟩
    exact hunique.1.symm
  · have hnonpos : rest ≤ 0 := by
      rcases hsign with rfl | hsign
      · exact Int.le_refl 0
      · rwa [← Int.sign_nonpos_iff, hsign, Int.sign_nonpos_iff]
    have hunique := (Int.tdiv_tmod_unique' hside hdivisor).mpr ⟨hsum, by omega, hnonpos⟩
    exact hunique.1.symm

/-- The quotient is that of the magnitudes, with a minus if just one of the two numbers
is negative. -/
theorem tdiv_eq_ite (dividend divisor : Int) :
    dividend.tdiv divisor =
      if (dividend < 0) ≠ (divisor < 0) then -((dividend.natAbs / divisor.natAbs : Nat) : Int)
      else ((dividend.natAbs / divisor.natAbs : Nat) : Int) := by
  have hquotient : ((dividend.natAbs / divisor.natAbs : Nat) : Int) =
      (dividend.natAbs : Int).tdiv divisor.natAbs :=
    Int.ofNat_tdiv dividend.natAbs divisor.natAbs
  have hmagnitude (value : Int) : (value.natAbs : Int) = if value < 0 then -value else value := by
    split <;> omega
  rw [hquotient, hmagnitude dividend, hmagnitude divisor]
  by_cases hleft : dividend < 0 <;> by_cases hright : divisor < 0 <;>
    simp [hleft, hright, Int.neg_tdiv, Int.tdiv_neg]

namespace Operator

theorem applyNamed_symbol (operator : Operator) :
    applyNamed [operator.symbol] = operator.apply := by
  funext left right
  rw [applyNamed, ofText?, ofSymbol?_symbol]

theorem apply_divide_eq_ok_iff :
    divide.apply dividend divisor = .ok quotient ↔ IsQuotient dividend divisor quotient := by
  rw [apply_eq_ok_iff]
  constructor
  · rintro ⟨hdivisor, rfl⟩
    exact isQuotient_tdiv (hdivisor rfl)
  · intro h
    exact ⟨fun _ => h.divisor_ne_zero, h.eq_tdiv.symm⟩

theorem apply_neg_left {operator : Operator} (hfactor : operator = .times ∨ operator = .divide)
    (left right : Int) : operator.apply (-left) right = (operator.apply left right).map (- ·) := by
  rcases hfactor with rfl | rfl
  · exact Sign.apply_applyTo .times (by decide) .minus left right
  · exact Sign.apply_applyTo .divide (by decide) .minus left right

theorem apply_divide_neg_right (dividend divisor : Int) :
    divide.apply dividend (-divisor) = (divide.apply dividend divisor).map (- ·) := by
  simp only [apply, Calculator.divide, Int.neg_eq_zero, Int.tdiv_neg]
  split <;> rfl

/-- A number is multiplied or divided by others, one after the other. -/
def chain (first : Int) : List (Operator × Int) → Except Fault Int
  | [] => .ok first
  | (operator, factor) :: rest =>
      (applyNamed [operator.symbol] first factor).bind fun value => chain value rest

theorem chain_neg (first : Int) {factors : List (Operator × Int)}
    (hfactors : ∀ factor ∈ factors, factor.1 = .times ∨ factor.1 = .divide) :
    chain (-first) factors = (chain first factors).map (- ·) := by
  induction factors generalizing first with
  | nil => rfl
  | cons factor rest ih =>
      obtain ⟨hfactor, hrest⟩ := List.forall_mem_cons.mp hfactors
      rw [chain, chain, applyNamed_symbol, apply_neg_left hfactor]
      cases factor.1.apply first factor.2 with
      | error fault => rfl
      | ok value => exact ih value hrest

/-- Division is exact and does not prefer a sign. It fails for a zero divisor only;
otherwise its value is the one number that leaves a rest smaller than the divisor and
on the side of the dividend, which is the quotient of the magnitudes with the sign that
the two numbers give it. A minus in front of either number is therefore a minus in front
of the quotient, and a product chain of any length changes its sign with its first
factor. -/
theorem divide_rounds_toward_zero :
    (∀ dividend divisor, applyNamed ['/'] dividend divisor = .error .divisionByZero ↔
      divisor = 0) ∧
    (∀ dividend divisor, divisor ≠ 0 →
      ∃ quotient, applyNamed ['/'] dividend divisor = .ok quotient ∧
        IsQuotient dividend divisor quotient ∧
        (∀ other, IsQuotient dividend divisor other → other = quotient) ∧
        quotient =
          if (dividend < 0) ≠ (divisor < 0) then
            -((dividend.natAbs / divisor.natAbs : Nat) : Int)
          else ((dividend.natAbs / divisor.natAbs : Nat) : Int)) ∧
    (∀ dividend divisor,
      applyNamed ['/'] (-dividend) divisor =
          (applyNamed ['/'] dividend divisor).map (- ·) ∧
        applyNamed ['/'] dividend (-divisor) =
          (applyNamed ['/'] dividend divisor).map (- ·)) ∧
    ∀ first factors, (∀ factor ∈ factors, factor.1 = .times ∨ factor.1 = .divide) →
      chain (-first) factors = (chain first factors).map (- ·) := by
  have hnamed : applyNamed ['/'] = divide.apply := applyNamed_symbol .divide
  rw [hnamed]
  refine ⟨fun dividend divisor => ?_, fun dividend divisor hdivisor => ?_,
    fun dividend divisor => ⟨?_, ?_⟩, fun first factors => chain_neg first⟩
  · simp [apply_eq_error_iff]
  · have hquotient : IsQuotient dividend divisor (dividend.tdiv divisor) :=
      isQuotient_tdiv hdivisor
    exact ⟨_, apply_divide_eq_ok_iff.mpr hquotient, hquotient, fun _ hother => hother.eq_tdiv,
      tdiv_eq_ite dividend divisor⟩
  · exact apply_neg_left (Or.inr rfl) dividend divisor
  · exact apply_divide_neg_right dividend divisor

/-- An inexact quotient of numbers of unlike signs, and a chain that divides in between. -/
theorem divide_rounds_toward_zero_below_zero :
    (∃ quotient, applyNamed ['/'] (-7) 2 = .ok quotient ∧ quotient = -3) ∧
      chain (-7) [(.times, 3), (.divide, 2), (.times, 5)] = .ok (-50) := by
  obtain ⟨_, hvalue, _, hchain⟩ := divide_rounds_toward_zero
  constructor
  · obtain ⟨quotient, hquotient, _, _, hmagnitudes⟩ := hvalue (-7) 2 (by decide)
    exact ⟨quotient, hquotient, hmagnitudes⟩
  · rw [hchain 7 [(.times, 3), (.divide, 2), (.times, 5)] (by decide)]
    rfl

end Operator

end Calculator
