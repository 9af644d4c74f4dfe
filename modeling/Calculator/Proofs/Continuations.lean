import Calculator.Proofs.Outlines
import Calculator.Proofs.Patterns
import Calculator.Proofs.Recognition

/-! # What may follow in an expression

The reading of an expression is compared with its pattern through families of
languages, one for each progress of the reading. A family is closed if it takes
in every way to go on. The pattern lies within every closed family, and every
closed family takes in what the reading accepts. The texts that the reading
accepts form a closed family, and so does what is left of the pattern.
-/

namespace Calculator

namespace Expression

open Pattern
open scoped Computability

/-- Languages for what may follow when the reading of an expression has come so
far, if they take in every way to go on. -/
structure Closed (rest : Progress → Language Char) : Prop where
  opens : ∀ progress, progress.place ≠ .operand → {['(']} * rest progress ≤ rest progress
  signs : ∀ progress, progress.Awaits →
    sign.matches' * rest { progress with place := .sign, signed := true } ≤ rest progress
  unsigned : ∀ progress, progress.Awaits →
    operand.matches' * rest { progress with place := .operand, signed := false } ≤ rest progress
  signed : ∀ progress, progress.place = .sign →
    operand.matches' * rest { progress with place := .operand } ≤ rest progress
  closes : ∀ progress, progress.place = .operand ∨ progress.place = .operator →
    {[')']} * rest progress ≤ rest progress
  joins : ∀ progress, progress.place = .operand →
    joint.matches' * rest ⟨.operator, true, false⟩ ≤ rest progress
  done : 1 ≤ rest ⟨.operand, true, false⟩

namespace Closed

variable {rest : Progress → Language Char}

theorem openings_mul_le (h : Closed rest) {progress : Progress}
    (hplace : progress.place ≠ .operand) :
    openings.matches' * rest progress ≤ rest progress :=
  kstar_mul_le_self (h.opens progress hplace)

theorem closings_mul_le (h : Closed rest) (progress : Progress)
    (hplace : progress.place = .operand) :
    closings.matches' * rest progress ≤ rest progress :=
  kstar_mul_le_self (h.closes progress (Or.inl hplace))

theorem parentheses_mul_le (h : Closed rest) {progress : Progress}
    (hplace : progress.place = .operator) :
    parentheses.matches' * rest progress ≤ rest progress := by
  apply kstar_mul_le_self
  change ({['(']} + ({[')']} + 0)) * rest progress ≤ rest progress
  rw [add_zero, add_mul]
  exact add_le (h.opens progress (by simp [hplace])) (h.closes progress (Or.inr hplace))

/-- What stands behind an operand leads to the place behind the next operator. -/
theorem behind_operand_mul_le (h : Closed rest) (progress : Progress)
    (hplace : progress.place = .operand) :
    closings.matches' * (joint.matches' * (parentheses.matches' * rest ⟨.operator, true, false⟩)) ≤
      rest progress := by
  grw [h.parentheses_mul_le rfl, h.joins progress hplace, h.closings_mul_le progress hplace]

/-- A clause leads from a place that awaits an operand to the place behind the
next operator. -/
theorem clause_mul_le (h : Closed rest) (progress : Progress) (hawaits : progress.Awaits) :
    clause.matches' * rest ⟨.operator, true, false⟩ ≤ rest progress := by
  have hplace : progress.place ≠ .operand := by
    rcases hawaits with hplace | hplace <;> simp [hplace]
  let signed : Progress := { progress with place := .sign, signed := true }
  have hsigned : openings.matches' * (operand.matches' * (closings.matches' * (joint.matches' *
      (parentheses.matches' * rest ⟨.operator, true, false⟩)))) ≤ rest signed := by
    grw [h.behind_operand_mul_le { signed with place := .operand } rfl,
      h.signed signed rfl, h.openings_mul_le (by simp [signed])]
  have hunsigned : openings.matches' * (operand.matches' * (closings.matches' * (joint.matches' *
      (parentheses.matches' * rest ⟨.operator, true, false⟩)))) ≤ rest progress := by
    grw [h.behind_operand_mul_le { progress with place := .operand, signed := false } rfl,
      h.unsigned progress hawaits, h.openings_mul_le hplace]
  simp only [clause, perhaps, RegularExpression.matches'_mul, RegularExpression.matches'_add,
    RegularExpression.matches'_epsilon, mul_assoc, add_mul, one_mul, mul_add]
  apply add_le
  · grw [hunsigned, h.openings_mul_le hplace]
  · grw [hsigned, h.signs progress hawaits, h.openings_mul_le hplace]

theorem expression_le (h : Closed rest) : expression.matches' ≤ rest .initial := by
  have hlast : operand.matches' * closings.matches' ≤ rest ⟨.operator, true, false⟩ := by
    have hclosings := h.closings_mul_le ⟨.operand, true, false⟩ rfl
    grw [← h.unsigned ⟨.operator, true, false⟩ (Or.inr rfl), ← hclosings, ← h.done, mul_one]
  simp only [expression, repeated, RegularExpression.matches'_mul, RegularExpression.matches'_star,
    mul_assoc]
  grw [hlast, kstar_mul_le_self (h.clause_mul_le _ (Or.inr rfl)),
    h.clause_mul_le .initial (Or.inl rfl)]

end Closed

namespace Progress

variable {progress : Progress}

theorem accepts_cons_iff {token : Token} {others : List Token} :
    progress.accepts (token :: others) = true ↔
      ∃ next, progress.next? token = some next ∧ next.accepts others = true := by
  rw [accepts]
  cases progress.next? token with
  | none => simp
  | some next => simp

/-- A sign on the operand that was read last only forbids the end. -/
theorem accepts_of_signed {joined signed : Bool} {tokens : List Token}
    (haccepts : accepts ⟨.operand, joined, signed⟩ tokens = true) :
    accepts ⟨.operand, joined, false⟩ tokens = true := by
  induction tokens with
  | nil =>
      simp only [accepts, isComplete] at haccepts ⊢
      simp_all
  | cons token others ih =>
      obtain ⟨next, hnext, hothers⟩ := accepts_cons_iff.mp haccepts
      rw [accepts_cons_iff]
      simp only [next?] at hnext ⊢
      split at hnext
      next hkind =>
        cases hnext
        exact ⟨_, by rw [if_pos hkind], ih hothers⟩
      next hkind => exact ⟨next, by rw [if_neg hkind]; exact hnext, hothers⟩

/-- What may follow a sign behind an operator may follow the operator itself. -/
theorem accepts_operator_of_sign {joined signed : Bool} {tokens : List Token}
    (haccepts : accepts ⟨.sign, joined, signed⟩ tokens = true) :
    accepts ⟨.operator, joined, false⟩ tokens = true := by
  induction tokens with
  | nil => cases haccepts
  | cons token others ih =>
      obtain ⟨next, hnext, hothers⟩ := accepts_cons_iff.mp haccepts
      rw [accepts_cons_iff]
      simp only [next?] at hnext ⊢
      split at hnext
      next hkind =>
        cases hnext
        exact ⟨_, by simp [hkind], ih hothers⟩
      next hkind =>
        split at hnext
        next hoperand =>
          cases hnext
          refine ⟨⟨.operand, joined, false⟩, ?_, accepts_of_signed hothers⟩
          have hkinds := hoperand
          rw [Token.isOperand, Bool.or_eq_true, decide_eq_true_eq, decide_eq_true_eq] at hkinds
          rcases hkinds with hkind | hkind <;>
            simp [hkind, beginOperand?, hoperand, Token.isSingleSign]
        next => cases hnext

/-- A sign behind an operator does not join what follows it, and may be left out. -/
theorem accepts_of_sign_cons {joined signed : Bool} {sign : Sign} {rest : Text}
    (haccepts : accepts ⟨.operator, joined, signed⟩ (Token.ofText (sign.symbol :: rest)) = true) :
    rest.head?.any (Token.joins sign.symbol) = false ∧
      accepts ⟨.operator, joined, false⟩ (Token.ofText rest) = true := by
  have hlone : rest.head?.any (Token.joins sign.symbol) = false := by
    by_contra hjoins
    -- two signs in one token are no sign of an operand
    obtain ⟨c, others, rfl, hc⟩ := Token.exists_cons_of_joins hjoins
    obtain ⟨more, tokens, htokens⟩ := Token.exists_ofText_cons c others
    have hsame := of_decide_eq_true ((Token.joins_sign sign c).symm.trans hc)
    have hpair : Token.ofText (sign.symbol :: c :: others) =
        ⟨Token.Kind.ofChar c, sign.symbol :: c :: more⟩ :: tokens := by
      change Token.attach sign.symbol (Token.ofText (c :: others)) = _
      rw [htokens]
      exact if_pos hc
    obtain ⟨next, hnext, _⟩ := accepts_cons_iff.mp (hpair ▸ haccepts)
    subst hsame
    cases sign <;> cases hnext
  refine ⟨hlone, ?_⟩
  rw [Token.ofText_cons_of_not_joins hlone] at haccepts
  obtain ⟨next, hnext, hothers⟩ := accepts_cons_iff.mp haccepts
  have hawaits : Awaits ⟨.operator, joined, signed⟩ := Or.inr rfl
  rw [hawaits.next?_sign] at hnext
  cases hnext
  exact accepts_operator_of_sign hothers

theorem not_joins_of_accepts_sign (hplace : progress.place = .sign) {rest : Text}
    (haccepts : progress.accepts (Token.ofText rest) = true) (sign : Sign) :
    rest.head?.any (Token.joins sign.symbol) = false := by
  cases rest with
  | nil => rfl
  | cons c others =>
      obtain ⟨more, tokens, htokens⟩ := Token.exists_ofText_cons c others
      rw [htokens] at haccepts
      obtain ⟨next, hnext, _⟩ := accepts_cons_iff.mp haccepts
      change Token.joins sign.symbol c = false
      rw [Token.joins_sign, decide_eq_false_iff_not]
      rintro rfl
      rcases progress with ⟨place, joined, signed⟩
      cases hplace
      cases sign <;> cases hnext

theorem Awaits.next?_atom (h : progress.Awaits) (atom : Atom) :
    progress.next? atom.token = some { progress with place := .operand, signed := false } := by
  rcases progress with ⟨place, joined, signed⟩
  rcases h with hplace | hplace <;> cases hplace <;> cases atom <;>
    simp [next?, beginOperand?, Atom.token, Token.isSingleSign, Token.isOperand]

theorem next?_atom (hplace : progress.place = .sign) (atom : Atom) :
    progress.next? atom.token = some { progress with place := .operand } := by
  rcases progress with ⟨place, joined, signed⟩
  cases hplace
  cases atom <;> simp [next?, Atom.token, Token.isOperand]

/-- An operand is read up to where the reading goes on behind it. -/
theorem accepts_atom_append {next : Progress} {atom : Atom}
    (hnext : progress.next? atom.token = some next) (hplace : next.place = .operand) {rest : Text}
    (haccepts : next.accepts (Token.ofText rest) = true) :
    progress.accepts (Token.ofText (atom.text ++ rest)) = true := by
  have hend := beginsOperand_eq_false (Token.shaped_of_mem_ofText rest) hplace haccepts
  rw [Token.flatMap_text_ofText] at hend
  rw [atom.ofText_text_append hend]
  exact accepts_cons_iff.mpr ⟨next, hnext, haccepts⟩

theorem accepts_signs_append (hplace : progress.place = .operand) (sign : Sign) (count : Nat)
    {rest : Text} (haccepts : accepts ⟨.operator, true, false⟩ (Token.ofText rest) = true) :
    progress.accepts
      (Token.ofText (sign.symbol :: (List.replicate count sign.symbol ++ rest))) = true := by
  have hnext (more : Text) : progress.next? ⟨Token.Kind.ofChar sign.symbol, more⟩ =
      some ⟨.operator, true, false⟩ := by
    rcases progress with ⟨place, joined, signed⟩
    cases hplace
    cases sign <;> rfl
  have hjoins (count : Nat) :
      ∀ c ∈ List.replicate count sign.symbol, Token.joins sign.symbol c = true := by
    intro c hc
    rw [Token.joins_sign, List.eq_of_mem_replicate hc, decide_eq_true rfl]
  by_cases hhead : rest.head?.any (Token.joins sign.symbol) = false
  · rw [Token.ofText_run_append (hjoins count) hhead]
    exact accepts_cons_iff.mpr ⟨_, hnext _, haccepts⟩
  · -- the run takes the sign that follows, which may be left out behind it
    obtain ⟨c, others, rfl, hc⟩ := Token.exists_cons_of_joins hhead
    obtain rfl := of_decide_eq_true ((Token.joins_sign sign c).symm.trans hc)
    obtain ⟨hlone, hothers⟩ := accepts_of_sign_cons haccepts
    have hrun : List.replicate count sign.symbol ++ sign.symbol :: others =
        List.replicate (count + 1) sign.symbol ++ others := by
      rw [List.replicate_succ', List.append_assoc, List.singleton_append]
    rw [hrun, Token.ofText_run_append (hjoins (count + 1)) hlone]
    exact accepts_cons_iff.mpr ⟨_, hnext _, hothers⟩

end Progress

/-- The texts whose tokens complete an expression. -/
def accepted (progress : Progress) : Language Char :=
  {text | progress.accepts (Token.ofText text) = true}

open Progress

theorem accepted_of_lone {progress next : Progress} {c : Char}
    (hlone : ∀ d, Token.joins c d = false)
    (hnext : progress.next? (Token.single c) = some next) {rest : Text}
    (hrest : rest ∈ accepted next) : c :: rest ∈ accepted progress := by
  change progress.accepts _ = true
  rw [Token.ofText_lone_cons hlone]
  exact accepts_cons_iff.mpr ⟨next, hnext, hrest⟩

/-- The reading takes in every way in which it may go on. -/
theorem closed_accepted : Closed accepted where
  opens := by
    intro progress hplace
    rw [concat_le_iff]
    rintro _ rfl rest hrest
    apply accepted_of_lone (fun _ => rfl) _ hrest
    rcases progress with ⟨place, joined, signed⟩
    cases place with
    | operand => exact absurd rfl hplace
    | start | sign | operator => rfl
  signs := by
    intro progress hawaits
    rw [concat_le_iff]
    intro front hfront rest hrest
    obtain ⟨sign, rfl⟩ := mem_sign_iff.mp hfront
    change progress.accepts (Token.ofText (sign.symbol :: rest)) = true
    rw [Token.ofText_cons_of_not_joins (not_joins_of_accepts_sign rfl hrest sign)]
    exact accepts_cons_iff.mpr ⟨_, hawaits.next?_sign sign, hrest⟩
  unsigned := by
    intro progress hawaits
    rw [concat_le_iff]
    intro front hfront rest hrest
    obtain ⟨atom, rfl⟩ := mem_operand_iff.mp hfront
    exact accepts_atom_append (hawaits.next?_atom atom) rfl hrest
  signed := by
    intro progress hplace
    rw [concat_le_iff]
    intro front hfront rest hrest
    obtain ⟨atom, rfl⟩ := mem_operand_iff.mp hfront
    exact accepts_atom_append (next?_atom hplace atom) rfl hrest
  closes := by
    intro progress hplace
    rw [concat_le_iff]
    rintro _ rfl rest hrest
    apply accepted_of_lone (fun _ => rfl) _ hrest
    rcases progress with ⟨place, joined, signed⟩
    rcases hplace with hplace | hplace <;> cases hplace <;> rfl
  joins := by
    intro progress hplace
    rw [concat_le_iff]
    intro front hfront rest hrest
    rcases mem_joint_iff.mp hfront with ⟨sign, count, rfl⟩ | ⟨c, hc, rfl⟩
    · exact accepts_signs_append hplace sign count hrest
    · rcases progress with ⟨place, joined, signed⟩
      cases hplace
      rcases hc with rfl | rfl | rfl <;> exact accepted_of_lone (fun _ => rfl) rfl hrest
  done := by
    rintro _ rfl
    rfl

theorem mem_operand_of_shaped {token : Token} (htoken : token.Shaped)
    (hoperand : token.isOperand = true) : token.text ∈ operand.matches' := by
  obtain ⟨atom, hatom⟩ := htoken.exists_atom hoperand
  exact mem_operand_iff.mpr ⟨atom, hatom.symm⟩

theorem Closed.mem_of_beginOperand? {rest : Progress → Language Char} (h : Closed rest)
    {progress next : Progress} {token : Token} (htoken : token.Shaped)
    (hawaits : progress.Awaits) (hnext : progress.beginOperand? token = some next) {others : Text}
    (hothers : others ∈ rest next) : token.text ++ others ∈ rest progress := by
  unfold beginOperand? at hnext
  split at hnext
  next hsingle =>
    cases hnext
    have hsign := mem_sign_iff.mpr (htoken.exists_sign hsingle)
    exact h.signs progress hawaits (Language.append_mem_mul hsign hothers)
  next =>
    split at hnext
    next hoperand =>
      cases hnext
      have hmem := mem_operand_of_shaped htoken hoperand
      exact h.unsigned progress hawaits (Language.append_mem_mul hmem hothers)
    next => cases hnext

/-- The languages that take in every way to go on take in each step of the reading. -/
theorem Closed.mem_of_next? {rest : Progress → Language Char} (h : Closed rest)
    {progress next : Progress} {token : Token} (htoken : token.Shaped)
    (hnext : progress.next? token = some next) {others : Text} (hothers : others ∈ rest next) :
    token.text ++ others ∈ rest progress := by
  have hopening (hkind : token.kind = .opening) : token.text = ['('] := by
    obtain ⟨c, htext, rfl⟩ := htoken.exists_text_eq_singleton hkind (by decide)
    exact htext
  have hclosing (hkind : token.kind = .closing) : token.text = [')'] := by
    obtain ⟨c, htext, rfl⟩ := htoken.exists_text_eq_singleton hkind (by decide)
    exact htext
  have hopens (hplace : progress.place ≠ .operand) (hkind : token.kind = .opening)
      (hsame : progress = next) : token.text ++ others ∈ rest progress := by
    subst hsame
    exact h.opens progress hplace (Language.append_mem_mul (hopening hkind) hothers)
  have hcloses (hplace : progress.place = .operand ∨ progress.place = .operator)
      (hkind : token.kind = .closing) (hsame : progress = next) :
      token.text ++ others ∈ rest progress := by
    subst hsame
    exact h.closes progress hplace (Language.append_mem_mul (hclosing hkind) hothers)
  unfold next? at hnext
  split at hnext
  next hplace =>
    split at hnext
    next hkind => exact hopens (by simp [hplace]) hkind (Option.some.inj hnext)
    next => exact h.mem_of_beginOperand? htoken (Or.inl hplace) hnext hothers
  next hplace =>
    split at hnext
    next hkind => exact hopens (by simp [hplace]) hkind (Option.some.inj hnext)
    next =>
      split at hnext
      next hoperand =>
        cases hnext
        have hmem := mem_operand_of_shaped htoken hoperand
        exact h.signed progress hplace (Language.append_mem_mul hmem hothers)
      next => cases hnext
  next hplace =>
    split at hnext
    next hkind => exact hcloses (Or.inl hplace) hkind (Option.some.inj hnext)
    next =>
      split at hnext
      next hkind =>
        cases hnext
        rw [Bool.or_eq_true, decide_eq_true_eq, decide_eq_true_eq] at hkind
        have hmem : token.text ∈ joint.matches' := by
          rw [mem_joint_iff]
          rcases hkind with hkind | hkind
          · exact Or.inl (htoken.text_of_sign hkind)
          · obtain ⟨c, htext, hc⟩ := htoken.exists_text_eq_singleton hkind (by decide)
            exact Or.inr ⟨c, hc, htext⟩
        exact h.joins progress hplace (Language.append_mem_mul hmem hothers)
      next => cases hnext
  next hplace =>
    split at hnext
    next hkind =>
      rw [Bool.or_eq_true, decide_eq_true_eq, decide_eq_true_eq] at hkind
      rcases hkind with hkind | hkind
      · exact hopens (by simp [hplace]) hkind (Option.some.inj hnext)
      · exact hcloses (Or.inr hplace) hkind (Option.some.inj hnext)
    next => exact h.mem_of_beginOperand? htoken (Or.inr hplace) hnext hothers

theorem Closed.mem_of_accepts {rest : Progress → Language Char} (h : Closed rest)
    {progress : Progress} {tokens : List Token} (hshaped : ∀ token ∈ tokens, token.Shaped)
    (haccepts : progress.accepts tokens = true) :
    tokens.flatMap Token.text ∈ rest progress := by
  induction tokens generalizing progress with
  | nil =>
      simp only [Progress.accepts, isComplete, Bool.and_eq_true, decide_eq_true_eq,
        Bool.not_eq_true'] at haccepts
      obtain ⟨⟨hplace, hjoined⟩, hsigned⟩ := haccepts
      obtain ⟨place, joined, signed⟩ := progress
      subst hplace hjoined hsigned
      exact h.done rfl
  | cons token others ih =>
      obtain ⟨htoken, hothers⟩ := List.forall_mem_cons.mp hshaped
      obtain ⟨next, hnext, haccepts⟩ := accepts_cons_iff.mp haccepts
      rw [List.flatMap_cons]
      exact h.mem_of_next? htoken hnext (ih hothers haccepts)

/-- Clauses and the last operand. -/
def clausesAndOperand : Language Char :=
  clause.matches'∗ * (operand.matches' * closings.matches')

/-- What may follow in front of an operand, if at least one clause must if none was read. -/
def further (joined : Bool) : Language Char :=
  if joined then clausesAndOperand else clause.matches' * clausesAndOperand

/-- What may follow behind an operand, which may be the last behind an operator. -/
def behindOperand (joined signed : Bool) : Language Char :=
  closings.matches' * (joint.matches' * (parentheses.matches' * clausesAndOperand) +
    if joined && !signed then 1 else 0)

def remaining (progress : Progress) : Language Char :=
  match progress.place with
  | .start => openings.matches' * further progress.joined
  | .sign =>
      openings.matches' * (operand.matches' * behindOperand progress.joined progress.signed)
  | .operand => behindOperand progress.joined progress.signed
  | .operator => parentheses.matches' * further progress.joined

theorem clause_mul_clausesAndOperand_le (joined : Bool) :
    clause.matches' * clausesAndOperand ≤ further joined := by
  cases joined with
  | false => exact le_rfl
  | true =>
      simp only [further, if_true, clausesAndOperand, ← mul_assoc]
      grw [mul_kstar_le_kstar]

/-- Behind the opening of an operand there may follow what a clause has there, or
for an operand without a sign what the last operand has. -/
theorem operand_mul_behindOperand_le {opening : Language Char} {joined signed : Bool}
    (hopening : opening ≤ openings.matches' * (perhaps sign).matches' * openings.matches')
    (hsigned : signed = false → opening = 1) :
    opening * (operand.matches' * behindOperand joined signed) ≤ further joined := by
  simp only [behindOperand, mul_add]
  apply add_le
  · have hclause : clause.matches' = openings.matches' * (perhaps sign).matches' *
        openings.matches' * (operand.matches' * (closings.matches' * (joint.matches' *
          parentheses.matches'))) := by
      simp only [clause, RegularExpression.matches'_mul, mul_assoc]
    grw [← clause_mul_clausesAndOperand_le joined, hclause, ← hopening]
    simp only [mul_assoc, le_refl]
  · cases joined with
    | false => simp
    | true =>
        cases signed with
        | true => simp
        | false =>
            rw [hsigned rfl]
            simp only [further, clausesAndOperand, Bool.not_false, Bool.and_true, if_true,
              one_mul, mul_one]
            exact le_mul_of_one_le_left' one_le_kstar

/-- What may follow in front of an operand may follow wherever one is awaited. -/
theorem further_le_remaining {progress : Progress} (hawaits : progress.Awaits) :
    further progress.joined ≤ remaining progress := by
  obtain ⟨place, joined, signed⟩ := progress
  -- the parentheses that may stand in front may also be missing
  rcases hawaits with hplace | hplace <;> cases hplace <;>
    exact le_mul_of_one_le_left' one_le_kstar

theorem singleton_mul_le_of_star {c : Char} {run rest : Language Char}
    (hrun : {[c]} * run ≤ run) : {[c]} * (run * rest) ≤ run * rest := by
  rw [← mul_assoc]
  grw [hrun]

/-- A clause and what must follow it take in every way in which the reading may go on. -/
theorem closed_remaining : Closed remaining where
  opens := by
    intro progress hplace
    obtain ⟨place, joined, signed⟩ := progress
    cases place with
    | operand => exact absurd rfl hplace
    | operator =>
        exact singleton_mul_le_of_star ((selects_oneOf _).singleton_mul_star_le (by decide))
    | start => exact singleton_mul_le_of_star ((selects_char '(').singleton_mul_star_le rfl)
    | sign => exact singleton_mul_le_of_star ((selects_char '(').singleton_mul_star_le rfl)
  signs := by
    intro progress hawaits
    have hopening : Pattern.sign.matches' * openings.matches' ≤
        openings.matches' * (perhaps Pattern.sign).matches' * openings.matches' := by
      have hsign : Pattern.sign.matches' ≤ (perhaps Pattern.sign).matches' :=
        fun text htext => Or.inr htext
      grw [← hsign]
      rw [mul_assoc]
      exact le_mul_of_one_le_left' one_le_kstar
    have hfurther : Pattern.sign.matches' * (openings.matches' *
        (operand.matches' * behindOperand progress.joined true)) ≤ further progress.joined := by
      rw [← mul_assoc]
      exact operand_mul_behindOperand_le hopening (by simp)
    exact hfurther.trans (further_le_remaining hawaits)
  unsigned := by
    intro progress hawaits
    have hopening : 1 ≤ openings.matches' * (perhaps Pattern.sign).matches' *
        openings.matches' := by
      have hopenings : 1 ≤ openings.matches' := one_le_kstar
      have hsign : 1 ≤ (perhaps Pattern.sign).matches' := fun text htext => Or.inl htext
      exact one_le_mul (one_le_mul hopenings hsign) hopenings
    have hfurther : operand.matches' * behindOperand progress.joined false ≤
        further progress.joined := by
      rw [← one_mul (operand.matches' * _)]
      exact operand_mul_behindOperand_le hopening fun _ => rfl
    exact hfurther.trans (further_le_remaining hawaits)
  signed := by
    intro progress hplace
    obtain ⟨place, joined, signed⟩ := progress
    cases hplace
    exact le_mul_of_one_le_left' one_le_kstar
  closes := by
    intro progress hplace
    obtain ⟨place, joined, signed⟩ := progress
    rcases hplace with hplace | hplace <;> cases hplace
    · exact singleton_mul_le_of_star ((selects_char ')').singleton_mul_star_le rfl)
    · exact singleton_mul_le_of_star ((selects_oneOf _).singleton_mul_star_le (by decide))
  joins := by
    intro progress hplace
    obtain ⟨place, joined, signed⟩ := progress
    cases hplace
    refine le_trans ?_ (le_mul_of_one_le_left' one_le_kstar)
    exact le_add_right le_rfl
  done := by
    refine le_trans ?_ (le_mul_of_one_le_left' one_le_kstar)
    exact le_add_left le_rfl

theorem remaining_initial_le : remaining .initial ≤ expression.matches' := by
  have hopenings : openings.matches' * openings.matches' ≤ openings.matches' :=
    (kstar_mul_kstar _).le
  change openings.matches' * (clause.matches' * clausesAndOperand) ≤ _
  simp only [expression, repeated, clause, clausesAndOperand, RegularExpression.matches'_mul,
    RegularExpression.matches'_star, ← mul_assoc]
  grw [hopenings]

/-- Tokens have the form of an expression exactly if the characters match the pattern. -/
theorem accepts_ofText_iff_mem (text : Text) :
    Expression.accepts (Token.ofText text) = true ↔ text ∈ expression.matches' := by
  constructor
  · intro haccepts
    have hmem := closed_remaining.mem_of_accepts (Token.shaped_of_mem_ofText text) haccepts
    rw [Token.flatMap_text_ofText] at hmem
    exact remaining_initial_le hmem
  · exact fun htext => closed_accepted.expression_le htext

end Expression

end Calculator
