import Calculator.Proofs.Infix
import Mathlib.Data.List.Chain

/-! # Misplaced parentheses

A closing parenthesis is misplaced directly behind an opening one or behind an
operator. A derived text has no such parenthesis.
-/

namespace Calculator

/-- Whether an operand or a parenthesis that opens must follow a character. -/
def Leads (c : Char) : Prop :=
  c ∈ ['(', '+', '-', '*', '/']

instance (c : Char) : Decidable (Leads c) :=
  inferInstanceAs (Decidable (c ∈ ['(', '+', '-', '*', '/']))

theorem leads_symbol (operator : Operator) : Leads operator.symbol := by
  cases operator <;> decide

/-- Whether a closing parenthesis stands directly behind an opening one or
behind an operator. -/
def Misplaced (text : Text) : Prop :=
  ∃ before c after, text = before ++ c :: ')' :: after ∧ Leads c

def Closes (text : Text) : Prop :=
  text.IsChain fun first second => second = ')' → ¬ Leads first

instance (text : Text) : Decidable (Closes text) :=
  inferInstanceAs (Decidable (List.IsChain _ text))

theorem misplaced_iff_not_closes {text : Text} : Misplaced text ↔ ¬ Closes text := by
  rw [Closes, List.isChain_iff_forall_rel_of_append_cons_cons]
  constructor
  · rintro ⟨before, c, after, htext, hleads⟩ hcloses
    exact hcloses htext rfl hleads
  · intro hnot
    by_contra hplaced
    apply hnot
    intro c second before after htext hsecond hleads
    exact hplaced ⟨before, c, after, hsecond ▸ htext, hleads⟩

instance (text : Text) : Decidable (Misplaced text) :=
  decidable_of_iff' _ misplaced_iff_not_closes

theorem not_leads_of_isAlphanum {c : Char} (hc : c.isAlphanum = true) : ¬ Leads c := by
  intro hleads
  simp only [Leads, List.mem_cons, List.not_mem_nil, or_false] at hleads
  rcases hleads with rfl | rfl | rfl | rfl | rfl <;> cases hc

theorem not_leads_closing : ¬ Leads ')' := by
  decide

theorem Closes.cons_of_not_leads {c : Char} {text : Text} (h : Closes text) (hc : ¬ Leads c) :
    Closes (c :: text) :=
  List.isChain_cons.mpr ⟨fun _ _ _ => hc, h⟩

/-- Whether the text moreover begins with no parenthesis that closes. -/
def Opens (text : Text) : Prop :=
  Closes text ∧ text.head? ≠ some ')'

theorem Opens.cons {c : Char} {text : Text} (h : Opens text) (hc : c ≠ ')') :
    Opens (c :: text) := by
  refine ⟨List.isChain_cons.mpr ⟨?_, h.1⟩, fun hhead => hc (Option.some.inj hhead)⟩
  rintro second hsecond rfl
  exact absurd hsecond h.2

theorem opens_run_append {run rest : Text} (hne : run ≠ [])
    (hrun : ∀ c ∈ run, c.isAlphanum = true) (hrest : Closes rest) : Opens (run ++ rest) := by
  induction run with
  | nil => exact absurd rfl hne
  | cons c tail ih =>
      obtain ⟨hc, htail⟩ := List.forall_mem_cons.mp hrun
      have hnext : Closes (tail ++ rest) := by
        cases tail with
        | nil => exact hrest
        | cons => exact (ih (List.cons_ne_nil _ _) htail).1
      refine ⟨hnext.cons_of_not_leads (not_leads_of_isAlphanum hc), fun hhead => ?_⟩
      rw [Option.some.inj hhead] at hc
      cases hc

theorem Opens.signs_append {text : Text} (h : Opens text) (signs : List Sign) :
    Opens (signs.map Sign.symbol ++ text) := by
  induction signs with
  | nil => exact h
  | cons sign rest ih => exact ih.cons (by cases sign <;> decide)

/-- No parenthesis is misplaced in a derived text, nor by what stands behind it. -/
theorem Infix.opens_text_append {level : Nat} (d : Infix level) {rest : Text}
    (hrest : Closes rest) : Opens (d.text ++ rest) := by
  induction d generalizing rest with
  | operand signs atom =>
      rw [text, List.append_assoc]
      have hatom := opens_run_append atom.text_ne_nil
        (fun c hc => Atom.isAlphanum_of_mem_text hc) hrest
      exact hatom.signs_append signs
  | group signs body ih =>
      simp only [text, List.append_assoc, List.cons_append, List.nil_append]
      have hbody := ih (hrest.cons_of_not_leads not_leads_closing)
      exact (hbody.cons (by decide)).signs_append signs
  | loosen inner ih => exact ih hrest
  | join connective left right ihleft ihright =>
      simp only [text, List.append_assoc, List.cons_append]
      exact ihleft ((ihright hrest).cons (by cases connective <;> decide)).1

theorem Infix.not_misplaced_text {level : Nat} (d : Infix level) : ¬ Misplaced d.text := by
  have hopens : Opens (d.text ++ []) := d.opens_text_append List.IsChain.nil
  rw [List.append_nil] at hopens
  intro hmisplaced
  exact misplaced_iff_not_closes.mp hmisplaced hopens.1

end Calculator
