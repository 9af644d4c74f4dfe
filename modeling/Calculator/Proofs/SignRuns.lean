import Calculator.Signs
import Mathlib.Data.List.Chain

/-! # Texts without neighbouring signs

A text that no pass of rewriting changes has no two signs next to each other,
so a normalized text has at most one sign between other characters.
-/

namespace Calculator.Signs

/-- Whether no two neighbouring characters are both signs. -/
def Settled (text : Text) : Prop :=
  text.IsChain fun first second => ¬ (isSign first = true ∧ isSign second = true)

theorem eq_or_eq_of_isSign {c : Char} (hsign : isSign c = true) : c = '+' ∨ c = '-' := by
  simpa [isSign] using hsign

theorem isChain_of_pairMinuses_eq {text : Text} (hfixed : pairMinuses text = text) :
    text.IsChain fun first second => ¬ (first = '-' ∧ second = '-') := by
  fun_induction pairMinuses text with
  | case1 rest ih => exact absurd (List.cons.inj hfixed).1 (by decide)
  | case2 c rest hpair ih =>
      refine List.isChain_cons.mpr ⟨?_, ih (List.cons.inj hfixed).2⟩
      rintro d hd ⟨rfl, rfl⟩
      obtain ⟨tail, rfl⟩ := List.head?_eq_some_iff.mp hd
      exact hpair tail rfl rfl
  | case3 => exact List.IsChain.nil

theorem isChain_of_mergePluses_eq {text : Text} (hfixed : mergePluses text = text) :
    text.IsChain fun first second => ¬ (first = '+' ∧ second = '+') := by
  fun_induction mergePluses text with
  | case1 rest ih =>
      -- a merged pair makes the text shorter, so it is not left as it was
      have hlength := congrArg List.length hfixed
      rcases mergePluses_eq_or_lt ('+' :: rest) with heq | hlt
      · rw [heq] at hlength
        simp at hlength
      · simp only [List.length_cons] at hlength hlt
        omega
  | case2 c rest hpair ih =>
      refine List.isChain_cons.mpr ⟨?_, ih (List.cons.inj hfixed).2⟩
      rintro d hd ⟨rfl, rfl⟩
      obtain ⟨tail, rfl⟩ := List.head?_eq_some_iff.mp hd
      exact hpair tail rfl rfl
  | case3 => exact List.IsChain.nil

theorem isChain_of_absorbPluses_eq {text : Text} (hfixed : absorbPluses text = text) :
    text.IsChain fun first second =>
      ¬ (first = '-' ∧ second = '+') ∧ ¬ (first = '+' ∧ second = '-') := by
  fun_induction absorbPluses text with
  | case1 rest ih =>
      have hlength := congrArg List.length (List.cons.inj hfixed).2
      rcases absorbPluses_eq_or_lt rest with heq | hlt
      · rw [heq] at hlength
        simp at hlength
      · simp only [List.length_cons] at hlength
        omega
  | case2 rest ih => exact absurd (List.cons.inj hfixed).1 (by decide)
  | case3 c rest hminus hplus ih =>
      refine List.isChain_cons.mpr ⟨?_, ih (List.cons.inj hfixed).2⟩
      intro d hd
      obtain ⟨tail, rfl⟩ := List.head?_eq_some_iff.mp hd
      refine ⟨?_, ?_⟩
      · rintro ⟨rfl, rfl⟩
        exact hminus tail rfl rfl
      · rintro ⟨rfl, rfl⟩
        exact hplus tail rfl rfl
  | case4 => exact List.IsChain.nil

/-- No part of a pass makes a text longer, so a pass that changes nothing has
three parts that change nothing. -/
theorem fixed_of_collapse_eq {text : Text} (hstable : collapse text = text) :
    pairMinuses text = text ∧ mergePluses text = text ∧ absorbPluses text = text := by
  rw [collapse] at hstable
  have hpair : pairMinuses text = text := by
    apply (pairMinuses_eq_or_lt text).resolve_right
    intro hlt
    have hmerge := length_le_of_eq_or_lt (mergePluses_eq_or_lt (pairMinuses text))
    have habsorb := length_le_of_eq_or_lt (absorbPluses_eq_or_lt (mergePluses (pairMinuses text)))
    rw [hstable] at habsorb
    omega
  rw [hpair] at hstable
  have hmerge : mergePluses text = text := by
    apply (mergePluses_eq_or_lt text).resolve_right
    intro hlt
    have habsorb := length_le_of_eq_or_lt (absorbPluses_eq_or_lt (mergePluses text))
    rw [hstable] at habsorb
    omega
  rw [hmerge] at hstable
  exact ⟨hpair, hmerge, hstable⟩

theorem settled_of_collapse_eq {text : Text} (hstable : collapse text = text) :
    Settled text := by
  obtain ⟨hpair, hmerge, habsorb⟩ := fixed_of_collapse_eq hstable
  have hpair := isChain_of_pairMinuses_eq hpair
  have hmerge := isChain_of_mergePluses_eq hmerge
  have habsorb := isChain_of_absorbPluses_eq habsorb
  rw [List.isChain_iff_forall_rel_of_append_cons_cons] at hpair hmerge habsorb
  rw [Settled, List.isChain_iff_forall_rel_of_append_cons_cons]
  rintro first second before after heq ⟨hfirst, hsecond⟩
  rcases eq_or_eq_of_isSign hfirst with rfl | rfl <;>
  rcases eq_or_eq_of_isSign hsecond with rfl | rfl
  · exact hmerge heq ⟨rfl, rfl⟩
  · exact (habsorb heq).2 ⟨rfl, rfl⟩
  · exact (habsorb heq).1 ⟨rfl, rfl⟩
  · exact hpair heq ⟨rfl, rfl⟩

theorem settled_normalize (text : Text) : Settled (normalize text) :=
  settled_of_collapse_eq (collapse_normalize text)

end Calculator.Signs
