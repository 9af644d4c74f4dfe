import Calculator.Proofs.ExpressionLanguage
import Calculator.Proofs.Normalization

/-! # Expressions with settled signs

Settling the signs of an expression gives an expression. An operator that is a sign takes
in the sign of the operand behind it, which then counts as one without a sign, and every
other place in the text is read as before.
-/

namespace Calculator

open Pattern

theorem Signs.settled_settle (text : Text) : Settled (settle text) := by
  rw [← normalize_eq_settle]
  exact settled_normalize text

theorem Signs.exists_eq_symbol {c : Char} (hc : isSign c = true) :
    ∃ sign : Sign, c = sign.symbol := by
  rcases eq_or_eq_of_isSign hc with rfl | rfl
  · exact ⟨.plus, rfl⟩
  · exact ⟨.minus, rfl⟩

theorem Pattern.isSign_eq_false_of_mem_operand {text : Text} (htext : text ∈ operand.matches') :
    ∀ c ∈ text, Signs.isSign c = false := by
  obtain ⟨atom, rfl⟩ := mem_operand_iff.mp htext
  exact fun c hc => Signs.isSign_eq_false_of_isAlphanum (Atom.isAlphanum_of_mem_text hc)

namespace Expression

open Progress

/-- The texts that are accepted once their signs are settled. -/
def acceptedSettled (progress : Progress) : Language Char :=
  {text | Signs.settle text ∈ accepted progress}

/-- Where no sign is read the settled text is read on as the text is. -/
theorem mul_acceptedSettled_le {front : Language Char} {progress next : Progress}
    (hle : front * accepted next ≤ accepted progress)
    (hsigns : ∀ text ∈ front, ∀ c ∈ text, Signs.isSign c = false) :
    front * acceptedSettled next ≤ acceptedSettled progress := by
  rw [concat_le_iff]
  intro text htext rest hrest
  change Signs.settle (text ++ rest) ∈ accepted progress
  rw [Signs.settle_append (hsigns text htext)]
  exact hle (Language.append_mem_mul htext hrest)

/-- What follows a sign begins with no other sign. -/
theorem Progress.head?_of_accepts_sign {progress : Progress} (hplace : progress.place = .sign)
    {rest : Text} (haccepts : progress.accepts (Token.ofText rest) = true) :
    rest.head?.any Signs.isSign = false := by
  cases rest with
  | nil => rfl
  | cons c others =>
      by_contra hsign
      obtain ⟨sign, rfl⟩ := Signs.exists_eq_symbol (eq_true_of_ne_false hsign)
      have hjoins := not_joins_of_accepts_sign hplace haccepts sign
      rw [List.head?_cons, Option.any_some, Token.joins_sign, decide_eq_true rfl] at hjoins
      cases hjoins

/-- An operator that is a sign takes in the signs behind it, also the one of an operand,
which may as well have none. -/
theorem Progress.accepts_foldr_absorb {progress : Progress} (hplace : progress.place = .operand)
    (sign : Sign) (signs : List Sign) {rest : Text} (hsettled : Signs.Settled rest)
    (haccepts : accepts ⟨.operator, true, false⟩ (Token.ofText rest) = true) :
    progress.accepts
      (Token.ofText (((sign :: signs).map Sign.symbol).foldr Signs.absorb rest)) = true := by
  by_cases hhead : rest.head?.any Signs.isSign = false
  · rw [Sign.foldr_absorb _ hhead]
    exact accepts_signs_append hplace _ 0 haccepts
  · cases rest with
    | nil => exact absurd rfl hhead
    | cons c others =>
        obtain ⟨last, rfl⟩ := Signs.exists_eq_symbol (eq_true_of_ne_false hhead)
        obtain ⟨_, hothers⟩ := accepts_of_sign_cons haccepts
        have hnone : others.head?.any Signs.isSign = false := by
          cases others with
          | nil => rfl
          | cons d _ => simpa [last.isSign_symbol] using (List.isChain_cons_cons.mp hsettled).1
        have htaken : ((sign :: signs).map Sign.symbol).foldr Signs.absorb (last.symbol :: others) =
            ((sign :: (signs ++ [last])).map Sign.symbol).foldr Signs.absorb others := by
          rw [← Signs.absorb_of_head? last.symbol hnone, ← List.cons_append, List.map_append,
            List.foldr_append]
          rfl
        rw [htaken, Sign.foldr_absorb _ hnone]
        exact accepts_signs_append hplace _ 0 hothers

/-- A text whose signs are settled may go on in every way in which the text may. -/
theorem closed_acceptedSettled : Closed acceptedSettled where
  opens progress hplace :=
    mul_acceptedSettled_le (closed_accepted.opens progress hplace)
      fun _ htext => htext ▸ List.forall_mem_singleton.mpr rfl
  signs := by
    intro progress hawaits
    rw [concat_le_iff]
    intro front hfront rest hrest
    obtain ⟨sign, rfl⟩ := mem_sign_iff.mp hfront
    change Signs.absorb sign.symbol (Signs.settle rest) ∈ accepted progress
    rw [Signs.absorb_of_head? _ (head?_of_accepts_sign rfl hrest)]
    exact closed_accepted.signs progress hawaits (Language.append_mem_mul hfront hrest)
  unsigned progress hawaits :=
    mul_acceptedSettled_le (closed_accepted.unsigned progress hawaits)
      fun _ => isSign_eq_false_of_mem_operand
  signed progress hplace :=
    mul_acceptedSettled_le (closed_accepted.signed progress hplace)
      fun _ => isSign_eq_false_of_mem_operand
  closes progress hplace :=
    mul_acceptedSettled_le (closed_accepted.closes progress hplace)
      fun _ htext => htext ▸ List.forall_mem_singleton.mpr rfl
  joins := by
    intro progress hplace
    rw [concat_le_iff]
    intro front hfront rest hrest
    rcases mem_joint_iff.mp hfront with ⟨sign, count, rfl⟩ | ⟨c, hc, rfl⟩
    · have hrun : sign.symbol :: List.replicate count sign.symbol =
          (sign :: List.replicate count sign).map Sign.symbol := by
        rw [List.map_cons, List.map_replicate]
      change Signs.settle (_ ++ rest) ∈ accepted progress
      rw [hrun, Signs.settle_append_foldr]
      exact accepts_foldr_absorb hplace sign _ (Signs.settled_settle rest) hrest
    · have hsign : Signs.isSign c = false := by
        rcases hc with rfl | rfl | rfl <;> rfl
      change Signs.absorb c (Signs.settle rest) ∈ accepted progress
      rw [Signs.absorb_of_not_isSign hsign]
      exact closed_accepted.joins progress hplace (Language.append_mem_mul hfront hrest)
  done := by
    rintro _ rfl
    rfl

/-- The language of expressions takes in its texts with settled signs. -/
theorem settle_mem_expression {text : Text} (htext : text ∈ expression.matches') :
    Signs.settle text ∈ expression.matches' :=
  (accepts_ofText_iff_mem _).mp (closed_acceptedSettled.expression_le htext)

end Expression

namespace Statement

/-- Normalizing a text that is classified as an expression leaves it one. -/
theorem status_classify_normalize (table : Variables) (text : Text)
    (hok : (classify table text).map status = .ok .ok) :
    (classify table (Signs.normalize text)).map status = .ok .ok := by
  rw [map_status_classify_eq_ok_iff] at hok ⊢
  rw [Signs.normalize_eq_settle]
  exact Expression.settle_mem_expression hok

/-- One sign is taken in by an operator, and one parenthesis too many stays where it is. -/
theorem status_classify_normalize_signed_operand :
    (classify .empty "1+-2--(x))*)3".toList).map status = .ok .ok ∧
      (classify .empty (Signs.normalize "1+-2--(x))*)3".toList)).map status = .ok .ok := by
  have hok : (classify .empty "1+-2--(x))*)3".toList).map status = .ok .ok := by decide +kernel
  exact ⟨hok, status_classify_normalize _ _ hok⟩

end Statement

end Calculator
