import Calculator.Proofs.Infix
import Calculator.Proofs.SignRuns
import Calculator.Proofs.Tokens
import Calculator.Statement.Expression

/-! # Recognition of derived texts

What the reading of an expression makes of a derived text depends only on how
many signs each operand has in its opening: one with two signs ends the reading,
and one sign in the last opening leaves the expression incomplete.
-/

namespace Calculator

namespace Token

/-- In a text without neighbouring signs a symbol is a token of its own. -/
theorem ofText_symbol_cons {c : Char} {rest : Text} (hc : c.isAlphanum = false)
    (hsettled : Signs.Settled (c :: rest)) : ofText (c :: rest) = single c :: ofText rest := by
  apply ofText_cons_of_not_joins
  cases rest with
  | nil => rfl
  | cons next others =>
      have hadmits := admits_ofChar c
      obtain ⟨hboth, _⟩ := List.isChain_cons_cons.mp hsettled
      rw [Char.isAlphanum, Bool.or_eq_false_iff] at hc
      change joins c next = false
      unfold joins
      split
      next hkind =>
        rw [hkind] at hadmits
        rw [show c.isDigit = true from hadmits] at hc
        cases hc.2
      next hkind =>
        rw [hkind] at hadmits
        rw [show c.isAlpha = true from hadmits] at hc
        cases hc.1
      next hkind =>
        -- a sign joins its like only, and the text has no two of them side by side
        rw [hkind] at hadmits
        rw [decide_eq_false_iff_not]
        rintro rfl
        exact hboth ⟨hadmits, hadmits⟩
      next => rfl

/-- A sign is joined by its like only. -/
theorem joins_sign (sign : Sign) (c : Char) :
    joins sign.symbol c = decide (sign.symbol = c) := by
  cases sign <;> rfl

end Token

theorem Signs.countP_isSign (text : Text) :
    text.countP isSign = text.count '+' + text.count '-' := by
  induction text with
  | nil => rfl
  | cons c rest ih =>
      by_cases hplus : c = '+'
      · subst hplus
        rw [List.countP_cons_of_pos rfl, List.count_cons_self, List.count_cons_of_ne (by decide), ih,
          Nat.add_right_comm]
      · by_cases hminus : c = '-'
        · subst hminus
          rw [List.countP_cons_of_pos rfl, List.count_cons_self, List.count_cons_of_ne hplus, ih,
            Nat.add_assoc]
        · have hsign : ¬ isSign c = true := by simp [isSign, hplus, hminus]
          rw [List.countP_cons_of_neg hsign, List.count_cons_of_ne hplus,
            List.count_cons_of_ne hminus, ih]

theorem Sign.countP_isSign_map_symbol (signs : List Sign) :
    (signs.map Sign.symbol).countP Signs.isSign = signs.length := by
  have hall : ∀ c ∈ signs.map Sign.symbol, Signs.isSign c = true := by
    intro c hc
    obtain ⟨sign, _, rfl⟩ := List.mem_map.mp hc
    cases sign <;> rfl
  rw [List.countP_eq_length.mpr hall, List.length_map]

def Atom.token : Atom → Token
  | .number digits _ _ => ⟨.number, digits⟩
  | .name letters _ _ => ⟨.name, letters⟩

theorem Atom.exists_run (atom : Atom) :
    ∃ c more, atom.text = c :: more ∧ atom.token = ⟨Token.Kind.ofChar c, c :: more⟩ ∧
      (∀ d ∈ more, Token.joins c d = true) ∧ ∀ d, Token.joins c d = true → d.isAlphanum = true := by
  cases atom with
  | number digits hne hdigits =>
      obtain ⟨c, more, rfl⟩ := List.exists_cons_of_ne_nil hne
      obtain ⟨hc, hmore⟩ := List.forall_mem_cons.mp hdigits
      have hkind := Token.ofChar_of_isDigit hc
      have hjoins (d : Char) : Token.joins c d = d.isDigit := by rw [Token.joins, hkind]
      refine ⟨c, more, rfl, by rw [token, hkind], fun d hd => ?_, fun d hd => ?_⟩
      · rw [hjoins, hmore d hd]
      · rw [Char.isAlphanum, ← hjoins, hd, Bool.or_true]
  | name letters hne hletters =>
      obtain ⟨c, more, rfl⟩ := List.exists_cons_of_ne_nil hne
      obtain ⟨hc, hmore⟩ := List.forall_mem_cons.mp hletters
      have hkind := Token.ofChar_of_isAlpha hc
      have hjoins (d : Char) : Token.joins c d = d.isAlpha := by rw [Token.joins, hkind]
      refine ⟨c, more, rfl, by rw [token, hkind], fun d hd => ?_, fun d hd => ?_⟩
      · rw [hjoins, hmore d hd]
      · rw [Char.isAlphanum, ← hjoins, hd, Bool.true_or]

theorem Atom.ofText_text_append (atom : Atom) {rest : Text}
    (hrest : rest.head?.any Char.isAlphanum = false) :
    Token.ofText (atom.text ++ rest) = atom.token :: Token.ofText rest := by
  obtain ⟨c, more, htext, htoken, hmore, halphanum⟩ := atom.exists_run
  rw [htext, htoken, List.cons_append]
  apply Token.ofText_run_append hmore
  cases rest with
  | nil => rfl
  | cons next others =>
      have hnext : next.isAlphanum = false := hrest
      change Token.joins c next = false
      by_contra hjoins
      rw [halphanum next (eq_true_of_ne_false hjoins)] at hnext
      cases hnext

namespace Infix

def tokens {level : Nat} : Infix level → List Token
  | .operand signs atom => signs.map (Token.single ·.symbol) ++ [atom.token]
  | .group signs body =>
      signs.map (Token.single ·.symbol) ++
        Token.single '(' :: (body.tokens ++ [Token.single ')'])
  | .loosen inner => inner.tokens
  | .join connective left right =>
      left.tokens ++ Token.single connective.symbol :: right.tokens

theorem tokens_signs_append (signs : List Sign) {rest : Text}
    (hsettled : Signs.Settled (signs.map Sign.symbol ++ rest)) :
    Token.ofText (signs.map Sign.symbol ++ rest) =
      signs.map (Token.single ·.symbol) ++ Token.ofText rest := by
  induction signs with
  | nil => rfl
  | cons sign others ih =>
      have hsymbol : sign.symbol.isAlphanum = false := by cases sign <;> rfl
      simp only [List.map_cons, List.cons_append] at hsettled ⊢
      rw [Token.ofText_symbol_cons hsymbol hsettled, ih hsettled.tail]

/-- A derived text has the tokens of its derivation, unless its last operand
goes on behind it. -/
theorem tokens_text_append {level : Nat} (d : Infix level) {rest : Text}
    (hsettled : Signs.Settled (d.text ++ rest))
    (hrest : rest.head?.any Char.isAlphanum = false) :
    Token.ofText (d.text ++ rest) = d.tokens ++ Token.ofText rest := by
  induction d generalizing rest with
  | operand signs atom =>
      rw [text, List.append_assoc] at hsettled ⊢
      rw [tokens_signs_append signs hsettled, atom.ofText_text_append hrest, tokens,
        List.append_assoc]
      rfl
  | group signs body ih =>
      simp only [text, List.append_assoc, List.cons_append, List.nil_append] at hsettled ⊢
      have hopening := hsettled.right_of_append
      have hbody := hopening.tail
      have hclosing := hbody.right_of_append
      rw [tokens_signs_append signs hsettled, Token.ofText_symbol_cons (by rfl) hopening,
        ih hbody (by rfl), Token.ofText_symbol_cons (by rfl) hclosing, tokens]
      simp only [List.append_assoc, List.cons_append, List.nil_append]
  | loosen inner ih => exact ih hsettled hrest
  | join connective left right ihleft ihright =>
      have hsymbol : connective.symbol.isAlphanum = false := by cases connective <;> rfl
      simp only [text, List.append_assoc, List.cons_append] at hsettled ⊢
      have hright := hsettled.right_of_append
      rw [ihleft hsettled (by exact hsymbol), Token.ofText_symbol_cons hsymbol hright,
        ihright hright.tail hrest, tokens]
      simp only [List.append_assoc, List.cons_append]

theorem tokens_text {level : Nat} (d : Infix level) (hsettled : Signs.Settled d.text) :
    Token.ofText d.text = d.tokens := by
  have htokens : Token.ofText (d.text ++ []) = d.tokens ++ Token.ofText [] :=
    d.tokens_text_append (by rwa [List.append_nil]) rfl
  rw [List.append_nil] at htokens
  exact htokens.trans (List.append_nil d.tokens)

end Infix

namespace Expression.Progress

def run? (progress : Progress) (tokens : List Token) : Option Progress :=
  tokens.foldlM next? progress

theorem run?_cons (progress : Progress) (token : Token) (rest : List Token) :
    progress.run? (token :: rest) = (progress.next? token).bind (·.run? rest) :=
  rfl

@[simp]
theorem run?_nil (progress : Progress) : progress.run? [] = some progress :=
  rfl

theorem run?_append (progress : Progress) (first second : List Token) :
    progress.run? (first ++ second) = (progress.run? first).bind (·.run? second) := by
  rw [run?, List.foldlM_append]
  rfl

theorem accepts_eq_any (progress : Progress) (tokens : List Token) :
    progress.accepts tokens = (progress.run? tokens).any isComplete := by
  induction tokens generalizing progress with
  | nil => rfl
  | cons token rest ih =>
      rw [accepts, run?_cons]
      cases progress.next? token with
      | none => rfl
      | some next => exact ih next

/-- Whether an operand with its opening may come next. -/
def Awaits (progress : Progress) : Prop :=
  progress.place = .start ∨ progress.place = .operator

/-- The progress after a number of signs in the opening of one operand. -/
def afterSigns? (progress : Progress) : Nat → Option Progress
  | 0 => some progress
  | 1 => some { progress with place := .sign, signed := true }
  | _ => none

/-- The progress after operands with given numbers of signs in their openings. -/
def afterOperands? (progress : Progress) (signCounts : List Nat) (joined : Bool) :
    Option Progress :=
  if signCounts.all (· ≤ 1) then
    some ⟨.operand, progress.joined || joined, signCounts.getLast? = some 1⟩
  else none

variable {progress : Progress}

theorem Awaits.next?_sign (h : progress.Awaits) (sign : Sign) :
    progress.next? (Token.single sign.symbol) =
      some { progress with place := .sign, signed := true } := by
  rcases progress with ⟨place, joined, signed⟩
  rcases h with hplace | hplace <;> cases hplace <;> cases sign <;> rfl

theorem Awaits.afterSigns?_bind_sign (h : progress.Awaits) (count : Nat) (sign : Sign) :
    (progress.afterSigns? count).bind (next? · (Token.single sign.symbol)) =
      progress.afterSigns? (count + 1) := by
  match count with
  | 0 => exact h.next?_sign sign
  | 1 => cases sign <;> rfl
  | _ + 2 => rfl

theorem Awaits.afterSigns?_bind_signs (h : progress.Awaits) (count : Nat) (signs : List Sign) :
    (progress.afterSigns? count).bind (·.run? (signs.map (Token.single ·.symbol))) =
      progress.afterSigns? (count + signs.length) := by
  induction signs generalizing count with
  | nil => cases progress.afterSigns? count <;> rfl
  | cons sign rest ih =>
      have hstep := ih (count + 1)
      rw [← h.afterSigns?_bind_sign count sign, Option.bind_assoc] at hstep
      rw [List.length_cons, Nat.add_comm rest.length, ← Nat.add_assoc]
      exact hstep

theorem Awaits.afterSigns?_bind_opening (h : progress.Awaits) (count : Nat) :
    (progress.afterSigns? count).bind (next? · (Token.single '(')) =
      progress.afterSigns? count := by
  rcases progress with ⟨place, joined, signed⟩
  match count with
  | 0 => rcases h with hplace | hplace <;> cases hplace <;> rfl
  | 1 => rfl
  | _ + 2 => rfl

theorem Awaits.afterSigns?_bind_atom (h : progress.Awaits) (count : Nat) (atom : Atom) :
    (progress.afterSigns? count).bind (next? · atom.token) =
      progress.afterOperands? [count] false := by
  rcases progress with ⟨place, joined, signed⟩
  match count with
  | 0 =>
    rcases h with hplace | hplace <;> cases hplace <;> cases atom <;>
      simp [afterSigns?, next?, beginOperand?, afterOperands?, Atom.token, Token.isSingleSign,
        Token.isOperand]
  | 1 =>
    cases atom <;>
      simp [afterSigns?, next?, afterOperands?, Atom.token, Token.isOperand]
  | _ + 2 => simp [afterSigns?, afterOperands?]

theorem afterOperands?_bind_closing (signCounts : List Nat) (joined : Bool) :
    (progress.afterOperands? signCounts joined).bind (next? · (Token.single ')')) =
      progress.afterOperands? signCounts joined := by
  rw [afterOperands?]
  split <;> rfl

/-- Of the operands before an operator only that they were read is remembered. -/
theorem afterOperands?_append {left right : List Nat} (hleft : left.all (· ≤ 1) = true)
    (hright : right ≠ []) (joined signed : Bool) :
    progress.afterOperands? (left ++ right) true =
      afterOperands? ⟨.operator, true, signed⟩ right joined := by
  rw [afterOperands?, afterOperands?, List.all_append, hleft, Bool.true_and,
    List.getLast?_append, List.getLast?_eq_some_getLast hright, Bool.or_true, Bool.true_or]
  rfl

theorem afterOperands?_append_eq_none {left : List Nat} (hleft : ¬ left.all (· ≤ 1) = true)
    (right : List Nat) (joined : Bool) :
    progress.afterOperands? (left ++ right) joined = none := by
  rw [afterOperands?, List.all_append, eq_false_of_ne_true hleft, Bool.false_and]
  rfl

theorem next?_connective (joined signed : Bool) {level : Nat} (connective : Connective level) :
    next? ⟨.operand, joined, signed⟩ (Token.single connective.symbol) =
      some ⟨.operator, true, false⟩ := by
  cases connective <;> rfl

end Expression.Progress

namespace Infix

open Expression

/-- The numbers of signs in the openings of the operands, if signs stand in
front of the text as well. -/
def signCounts {level : Nat} (before : Nat) : Infix level → List Nat
  | .operand signs _ => [before + signs.length]
  | .group signs body => body.signCounts (before + signs.length)
  | .loosen inner => inner.signCounts before
  | .join _ left right => left.signCounts before ++ right.signCounts 0

theorem signCounts_ne_nil {level : Nat} (before : Nat) (d : Infix level) :
    d.signCounts before ≠ [] := by
  induction d generalizing before with
  | operand signs atom => exact List.cons_ne_nil _ _
  | group signs body ih => exact ih _
  | loosen inner ih => exact ih before
  | join connective left right ihleft ihright => exact List.append_ne_nil_of_left_ne_nil (ihleft _) _

theorem run?_tokens {level : Nat} (d : Infix level) {progress : Progress}
    (h : progress.Awaits) (before : Nat) :
    (progress.afterSigns? before).bind (·.run? d.tokens) =
      progress.afterOperands? (d.signCounts before) d.isJoined := by
  induction d generalizing progress before with
  | operand signs atom =>
      simp only [tokens, Progress.run?_append, Progress.run?_cons, ← Option.bind_assoc,
        h.afterSigns?_bind_signs, h.afterSigns?_bind_atom, Progress.run?_nil, Option.bind_fun_some]
      rfl
  | group signs body ih =>
      simp only [tokens, Progress.run?_append, Progress.run?_cons, ← Option.bind_assoc,
        h.afterSigns?_bind_signs, h.afterSigns?_bind_opening, ih h,
        Progress.afterOperands?_bind_closing, Progress.run?_nil, Option.bind_fun_some]
      rfl
  | loosen inner ih => exact ih h before
  | join connective left right ihleft ihright =>
      simp only [tokens, Progress.run?_append, Progress.run?_cons, ← Option.bind_assoc, ihleft h]
      rw [Progress.afterOperands?]
      -- behind the operator the reading starts anew, unless an operand had two signs
      split
      next hleft =>
        have hawaits : Progress.Awaits ⟨.operator, true, false⟩ := Or.inr rfl
        have hright := ihright hawaits 0
        rw [signCounts, isJoined,
          Progress.afterOperands?_append hleft (right.signCounts_ne_nil 0) right.isJoined false,
          ← hright]
        simp only [Option.bind_some, Progress.next?_connective]
        rfl
      next hleft => exact (Progress.afterOperands?_append_eq_none hleft _ _).symm

theorem signCounts_eq_map_openings {level : Nat} (before : Nat) (d : Infix level) :
    d.signCounts before = (d.openings.map (List.countP Signs.isSign)).modifyHead (before + ·) := by
  induction d generalizing before with
  | operand signs atom =>
      rw [openings, List.map_singleton, Sign.countP_isSign_map_symbol]
      rfl
  | group signs body ih =>
      have hopening (opening : Text) :
          (signs.map Sign.symbol ++ '(' :: opening).countP Signs.isSign =
            signs.length + opening.countP Signs.isSign := by
        rw [List.countP_append, Sign.countP_isSign_map_symbol, List.countP_cons_of_neg (by decide)]
      rw [signCounts, openings, ih]
      cases body.openings with
      | nil => rfl
      | cons first others =>
          simp only [List.modifyHead_cons, List.map_cons, hopening, Nat.add_assoc]
  | loosen inner ih => exact ih before
  | join connective left right ihleft ihright =>
      have hleft := left.signCounts_ne_nil before
      rw [ihleft] at hleft
      rw [signCounts, openings, ihleft, ihright]
      cases hopenings : left.openings with
      | nil => exact absurd (by rw [hopenings]; rfl) hleft
      | cons first others => cases right.openings <;> simp

/-- Whether an operand has two signs in its opening, or the last operand one. -/
def Oversigned {level : Nat} (d : Infix level) : Prop :=
  (∃ opening ∈ d.openings, 2 ≤ opening.count '+' + opening.count '-') ∨
    ∃ opening ∈ d.openings.getLast?, 1 ≤ opening.count '+' + opening.count '-'

theorem oversigned_iff {level : Nat} {d : Infix level} :
    d.Oversigned ↔
      (∃ opening ∈ d.openings, 2 ≤ opening.countP Signs.isSign) ∨
        ∃ opening ∈ d.openings.getLast?, 1 ≤ opening.countP Signs.isSign := by
  simp only [Oversigned, Signs.countP_isSign]

/-- A derived text without neighbouring signs is accepted if it has a binary
operator and no operand with too many signs. -/
theorem accepts_ofText_text_iff (d : Infix 1) (hsettled : Signs.Settled d.text) :
    Expression.accepts (Token.ofText d.text) = true ↔ d.isJoined = true ∧ ¬ d.Oversigned := by
  have hawaits : Progress.initial.Awaits := Or.inl rfl
  have hrun := d.run?_tokens hawaits 0
  change Progress.initial.run? d.tokens = _ at hrun
  have hcounts : d.signCounts 0 = d.openings.map (List.countP Signs.isSign) := by
    rw [signCounts_eq_map_openings]
    cases d.openings <;> simp
  rw [d.tokens_text hsettled, Expression.accepts, Progress.accepts_eq_any, hrun, hcounts,
    Progress.afterOperands?, oversigned_iff, List.getLast?_map]
  split
  next hall =>
    have hle : ∀ opening ∈ d.openings, opening.countP Signs.isSign ≤ 1 := by
      simpa using hall
    have hfew : ¬ ∃ opening ∈ d.openings, 2 ≤ opening.countP Signs.isSign := by
      intro htwo
      obtain ⟨opening, hmem, htwo⟩ := htwo
      exact Nat.lt_irrefl 1 (Nat.le_trans htwo (hle opening hmem))
    rw [or_iff_right hfew, Option.any_some, Progress.isComplete]
    cases hlast : d.openings.getLast? with
    | none => simp [Progress.initial]
    | some last =>
        have hlastle := hle last (List.mem_of_getLast? hlast)
        have hone : (∃ opening ∈ some last, 1 ≤ opening.countP Signs.isSign) ↔
            last.countP Signs.isSign = 1 := by
          refine ⟨?_, fun hone => ⟨last, rfl, Nat.le_of_eq hone.symm⟩⟩
          intro hsome
          obtain ⟨opening, hopening, hsigned⟩ := hsome
          rw [Option.mem_some_iff.mp hopening] at hlastle
          rw [Option.mem_some_iff.mp hopening]
          exact Nat.le_antisymm hlastle hsigned
        rw [hone]
        simp [Progress.initial]
  next hall =>
    obtain ⟨count, hcount, hmany⟩ := List.all_eq_false.mp (eq_false_of_ne_true hall)
    obtain ⟨opening, hopening, rfl⟩ := List.mem_map.mp hcount
    have htwo : 2 ≤ opening.countP Signs.isSign := by
      simpa [Nat.lt_iff_add_one_le] using hmany
    simp only [Option.any_none, Bool.false_eq_true, false_iff, not_and, not_not]
    intro _
    exact Or.inl ⟨opening, hopening, htwo⟩

end Infix

end Calculator
