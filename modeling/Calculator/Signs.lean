import Calculator.Log
import Calculator.Text.Quoted

/-!
# Sign runs

Redundant signs are rewritten away before a line is classified. One pass turns
pairs of minuses into pluses, merges runs of pluses and lets a minus absorb the
plus beside it. Passes are repeated until the text is stable. A pass that
changes the text shortens it, which is why the repetition ends.
-/

namespace Calculator.Signs

def isSign (c : Char) : Bool :=
  c = '+' || c = '-'

/-- Replace each pair of minuses, from left to right, by a plus. -/
def pairMinuses : Text → Text
  | '-' :: '-' :: rest => '+' :: pairMinuses rest
  | c :: rest => c :: pairMinuses rest
  | [] => []

/-- Replace each run of pluses by a single plus. -/
def mergePluses : Text → Text
  | '+' :: '+' :: rest => mergePluses ('+' :: rest)
  | c :: rest => c :: mergePluses rest
  | [] => []

/-- Replace each pair of unlike signs, from left to right, by a minus. -/
def absorbPluses : Text → Text
  | '-' :: '+' :: rest => '-' :: absorbPluses rest
  | '+' :: '-' :: rest => '-' :: absorbPluses rest
  | c :: rest => c :: absorbPluses rest
  | [] => []

def collapse (text : Text) : Text :=
  absorbPluses (mergePluses (pairMinuses text))

section Lengths

variable {text first second : Text}

theorem length_le_of_eq_or_lt (h : first = text ∨ first.length < text.length) :
    first.length ≤ text.length := by
  rcases h with rfl | hlt
  · exact Nat.le_refl _
  · exact Nat.le_of_lt hlt

theorem cons_eq_or_lt (c : Char) (h : first = text ∨ first.length < text.length) :
    c :: first = c :: text ∨ (c :: first).length < (c :: text).length := by
  rcases h with rfl | hlt
  · exact Or.inl rfl
  · exact Or.inr (Nat.succ_lt_succ hlt)

/-- Two rewritings, one after the other, change nothing or make a text shorter if both do. -/
theorem eq_or_lt_trans (hfirst : first = text ∨ first.length < text.length)
    (hsecond : second = first ∨ second.length < first.length) :
    second = text ∨ second.length < text.length := by
  rcases hfirst with rfl | hlt
  · exact hsecond
  · exact Or.inr (Nat.lt_of_le_of_lt (length_le_of_eq_or_lt hsecond) hlt)

end Lengths

theorem pairMinuses_eq_or_lt (text : Text) :
    pairMinuses text = text ∨ (pairMinuses text).length < text.length := by
  fun_induction pairMinuses text with
  | case1 rest ih =>
      have hle := length_le_of_eq_or_lt ih
      exact Or.inr (Nat.succ_lt_succ (Nat.lt_succ_of_le hle))
  | case2 c rest _ ih => exact cons_eq_or_lt c ih
  | case3 => exact Or.inl rfl

theorem mergePluses_eq_or_lt (text : Text) :
    mergePluses text = text ∨ (mergePluses text).length < text.length := by
  fun_induction mergePluses text with
  | case1 rest ih =>
      have hle := length_le_of_eq_or_lt ih
      exact Or.inr (Nat.lt_succ_of_le hle)
  | case2 c rest _ ih => exact cons_eq_or_lt c ih
  | case3 => exact Or.inl rfl

theorem absorbPluses_eq_or_lt (text : Text) :
    absorbPluses text = text ∨ (absorbPluses text).length < text.length := by
  fun_induction absorbPluses text with
  | case1 rest ih | case2 rest ih =>
      have hle := length_le_of_eq_or_lt ih
      exact Or.inr (Nat.succ_lt_succ (Nat.lt_succ_of_le hle))
  | case3 c rest _ _ ih => exact cons_eq_or_lt c ih
  | case4 => exact Or.inl rfl

/-- A pass that changes the text makes it shorter. -/
theorem length_collapse_lt {text : Text} (hchanged : collapse text ≠ text) :
    (collapse text).length < text.length := by
  have hpair := pairMinuses_eq_or_lt text
  have hmerge := eq_or_lt_trans hpair (mergePluses_eq_or_lt (pairMinuses text))
  have habsorb := eq_or_lt_trans hmerge (absorbPluses_eq_or_lt (mergePluses (pairMinuses text)))
  exact habsorb.resolve_left hchanged

/-- The text with its redundant signs rewritten away. -/
def normalize (text : Text) : Text :=
  if collapse text = text then text else normalize (collapse text)
termination_by text.length
decreasing_by exact length_collapse_lt ‹_›

@[simp]
theorem normalize_nil : normalize [] = [] := by
  rw [normalize]
  rfl

/-- The result of the rewriting is stable. -/
theorem collapse_normalize (text : Text) : collapse (normalize text) = normalize text := by
  fun_induction normalize text with
  | case1 text hstable => exact hstable
  | case2 text _ ih => exact ih

/-- The record of a normalization, if it changed anything. -/
def records (text : Text) : List Log.Record :=
  let normal := normalize text
  if normal = text then []
  else [⟨.signs, .debug, s!"Normalized {text.quoted} to {normal.quoted}"⟩]

end Calculator.Signs
