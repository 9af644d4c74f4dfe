import Calculator.Postfix.Lexeme

/-! # Matching parentheses

The parenthesis that a closing one matches is the last opening one with balanced
lexemes behind it.
-/

namespace Calculator.Postfix

/-- The number of open parentheses after lexemes, if none closes nothing. -/
def levelAfter? (level : Nat) : List Lexeme → Option Nat
  | [] => some level
  | .opening :: rest => levelAfter? (level + 1) rest
  | .closing :: rest =>
      match level with
      | 0 => none
      | level + 1 => levelAfter? level rest
  | _ :: rest => levelAfter? level rest

theorem levelAfter?_append (level : Nat) (first second : List Lexeme) :
    levelAfter? level (first ++ second) =
      (levelAfter? level first).bind (levelAfter? · second) := by
  fun_induction levelAfter? level first with
  | case1 => rfl
  | case2 level rest ih => exact ih
  | case3 => rfl
  | case4 rest level ih => exact ih
  | case5 level lexeme rest hopening hclosing ih =>
      cases lexeme with
      | opening => exact absurd rfl hopening
      | closing => exact absurd rfl hclosing
      | _ => exact ih

theorem levelAfter?_add {level after : Nat} {lexemes : List Lexeme} (more : Nat)
    (hafter : levelAfter? level lexemes = some after) :
    levelAfter? (level + more) lexemes = some (after + more) := by
  fun_induction levelAfter? level lexemes with
  | case1 level => rw [levelAfter?, Option.some.inj hafter]
  | case2 level rest ih =>
      rw [levelAfter?, Nat.add_right_comm]
      exact ih hafter
  | case3 => cases hafter
  | case4 rest level ih =>
      rw [Nat.succ_add, levelAfter?]
      exact ih hafter
  | case5 level lexeme rest hopening hclosing ih =>
      cases lexeme with
      | opening => exact absurd rfl hopening
      | closing => exact absurd rfl hclosing
      | _ => exact ih hafter

/-- Whether each parenthesis has its match among the lexemes. -/
def Balanced (lexemes : List Lexeme) : Prop :=
  levelAfter? 0 lexemes = some 0

instance (lexemes : List Lexeme) : Decidable (Balanced lexemes) :=
  inferInstanceAs (Decidable (_ = _))

namespace Balanced

theorem nil : Balanced [] :=
  rfl

theorem append {first second : List Lexeme} (hfirst : Balanced first) (hsecond : Balanced second) :
    Balanced (first ++ second) := by
  rw [Balanced, levelAfter?_append, hfirst]
  exact hsecond

theorem group {inside : List Lexeme} (h : Balanced inside) :
    Balanced (.opening :: (inside ++ [.closing])) := by
  have hinside := levelAfter?_add 1 h
  rw [Balanced, levelAfter?, levelAfter?_append, hinside]
  rfl

/-- Behind a parenthesis that is left open nothing is balanced to its left. -/
theorem not_append_opening {before inside : List Lexeme} (hinside : Balanced inside) :
    ¬ Balanced (before ++ .opening :: inside) := by
  intro hbalanced
  rw [Balanced, levelAfter?_append] at hbalanced
  obtain ⟨level, _, hafter⟩ := Option.bind_eq_some_iff.mp hbalanced
  have hopen := levelAfter?_add (level + 1) hinside
  rw [Nat.zero_add] at hopen
  rw [levelAfter?, hopen] at hafter
  cases hafter

/-- The match of a closing parenthesis is determined by what stands before it. -/
theorem eq_of_append_opening_eq {before before' inside inside' : List Lexeme}
    (hinside : Balanced inside) (hinside' : Balanced inside')
    (heq : before ++ .opening :: inside = before' ++ .opening :: inside') : before = before' := by
  -- of two opening parentheses in one list the later one has the earlier before it, and
  -- behind the earlier one the later would be left open
  have hlonger {second inside inside' : List Lexeme} (hinside : Balanced inside)
      (hinside' : Balanced inside')
      (heq : .opening :: inside = second ++ .opening :: inside') : second = [] := by
    cases second with
    | nil => rfl
    | cons lexeme rest =>
        rw [(List.cons.inj heq).2] at hinside
        exact absurd hinside hinside'.not_append_opening
  rcases List.append_eq_append_iff.mp heq with ⟨more, rfl, hmore⟩ | ⟨more, rfl, hmore⟩
  · rw [hlonger hinside hinside' hmore, List.append_nil]
  · rw [hlonger hinside' hinside hmore, List.append_nil]

end Balanced

end Calculator.Postfix
