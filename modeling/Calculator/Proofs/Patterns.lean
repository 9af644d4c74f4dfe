import Calculator.Proofs.Infix
import Mathlib.Computability.RegularExpressions
import Mathlib.Order.CompletePartialOrder

/-! # Patterns

The forms of texts are given by regular expressions over characters. A pattern
says which texts have a form, and nothing about how they are read.
-/

namespace Calculator

/-- A regular expression over characters. -/
abbrev Pattern :=
  RegularExpression Char

namespace Pattern

open RegularExpression

/-- Any one of some characters. -/
def oneOf (choices : Text) : Pattern :=
  (choices.map char).sum

def perhaps (pattern : Pattern) : Pattern :=
  1 + pattern

/-- One or more texts of a pattern, one after the other. -/
def repeated (pattern : Pattern) : Pattern :=
  pattern * pattern.star

def digit : Pattern :=
  oneOf "0123456789".toList

def letter : Pattern :=
  oneOf "abcdefghijklmnopqrstuvwxyzABCDEFGHIJKLMNOPQRSTUVWXYZ".toList

def sign : Pattern :=
  oneOf "+-".toList

def digits : Pattern :=
  repeated digit

def letters : Pattern :=
  repeated letter

/-- A number or a name. -/
def operand : Pattern :=
  digits + letters

def openings : Pattern :=
  (char '(').star

def closings : Pattern :=
  (char ')').star

def parentheses : Pattern :=
  (oneOf "()".toList).star

/-- What joins operands: a run of one sign, a star, a slash or a caret. -/
def joint : Pattern :=
  repeated (char '+') + repeated (char '-') + char '*' + char '/' + char '^'

/-- An operand with what stands around it, up to the next operand or its opening. -/
def clause : Pattern :=
  openings * perhaps sign * openings * operand * closings * joint * parentheses

def expression : Pattern :=
  repeated clause * operand * closings

/-- Whether a pattern matches the single characters of a class, and nothing else. -/
def Selects (pattern : Pattern) (member : Char → Prop) : Prop :=
  ∀ text, text ∈ pattern.matches' ↔ ∃ c, member c ∧ text = [c]

theorem selects_char (c : Char) : Selects (char c) (· = c) := by
  intro text
  rw [matches'_char]
  exact ⟨fun htext => ⟨c, rfl, htext⟩, by rintro ⟨_, rfl, rfl⟩; rfl⟩

theorem selects_oneOf (choices : Text) : Selects (oneOf choices) (· ∈ choices) := by
  intro text
  induction choices with
  | nil => simp [oneOf, matches'_zero]
  | cons c rest ih =>
      have hsum : (oneOf (c :: rest)).matches' = (char c).matches' + (oneOf rest).matches' := rfl
      rw [hsum, Language.mem_add, selects_char c, ih]
      simp [or_and_right, exists_or]

theorem Selects.congr {pattern : Pattern} {member other : Char → Prop}
    (h : Selects pattern member) (hsame : ∀ c, member c ↔ other c) : Selects pattern other := by
  intro text
  simp only [h text, hsame]

theorem Selects.mem_star_iff {pattern : Pattern} {member : Char → Prop}
    (h : Selects pattern member) {text : Text} :
    text ∈ pattern.star.matches' ↔ ∀ c ∈ text, member c := by
  constructor
  · intro htext
    obtain ⟨parts, rfl, hparts⟩ := Language.mem_kstar.mp htext
    intro c hc
    obtain ⟨part, hpart, hc⟩ := List.mem_flatten.mp hc
    obtain ⟨d, hd, rfl⟩ := (h part).mp (hparts part hpart)
    rwa [List.mem_singleton.mp hc]
  · intro hall
    have hparts : text = (text.map ([·])).flatten := by
      rw [← List.flatMap_def, List.flatMap_singleton']
    refine Language.mem_kstar.mpr ⟨text.map ([·]), hparts, fun part hpart => ?_⟩
    obtain ⟨c, hc, rfl⟩ := List.mem_map.mp hpart
    exact (h [c]).mpr ⟨c, hall c hc, rfl⟩

/-- A run of a class goes on with a further member in front. -/
theorem Selects.singleton_mul_star_le {pattern : Pattern} {member : Char → Prop}
    (h : Selects pattern member) {c : Char} (hc : member c) :
    {[c]} * pattern.star.matches' ≤ pattern.star.matches' := by
  have hone : ({[c]} : Language Char) ≤ pattern.matches' := by
    rintro _ rfl
    exact (h [c]).mpr ⟨c, hc, rfl⟩
  grw [hone]
  exact mul_kstar_le_kstar

theorem Selects.mem_repeated_iff {pattern : Pattern} {member : Char → Prop}
    (h : Selects pattern member) {text : Text} :
    text ∈ (repeated pattern).matches' ↔ text ≠ [] ∧ ∀ c ∈ text, member c := by
  rw [repeated, matches'_mul, Language.mem_mul]
  constructor
  · rintro ⟨first, hfirst, rest, hrest, rfl⟩
    obtain ⟨c, hc, rfl⟩ := (h first).mp hfirst
    exact ⟨List.cons_ne_nil c rest, List.forall_mem_cons.mpr ⟨hc, h.mem_star_iff.mp hrest⟩⟩
  · rintro ⟨hne, hall⟩
    obtain ⟨c, rest, rfl⟩ := List.exists_cons_of_ne_nil hne
    obtain ⟨hc, hrest⟩ := List.forall_mem_cons.mp hall
    exact ⟨[c], (h [c]).mpr ⟨c, hc, rfl⟩, rest, h.mem_star_iff.mpr hrest, rfl⟩

/-- A class of ASCII characters has the members that it is listed with. -/
theorem mem_iff_of_forall_ascii {choices : Text} {member : Char → Bool}
    (hascii : ∀ c, member c = true → c.toNat < 128)
    (hsame : ∀ n < 128, member (Char.ofNat n) = true → Char.ofNat n ∈ choices)
    (hchoices : choices.all member = true) (c : Char) :
    c ∈ choices ↔ member c = true := by
  refine ⟨List.all_eq_true.mp hchoices c, fun hc => ?_⟩
  have hmem := hsame c.toNat (hascii c hc)
  rw [Char.ofNat_toNat] at hmem
  exact hmem hc

theorem selects_digit : Selects digit (·.isDigit = true) := by
  apply (selects_oneOf _).congr
  apply mem_iff_of_forall_ascii
  · intro c hc
    have hrange : 48 ≤ c.toNat ∧ c.toNat ≤ 57 := Char.isDigit_iff_toNat.mp hc
    omega
  · decide +kernel
  · decide +kernel

theorem selects_letter : Selects letter (·.isAlpha = true) := by
  apply (selects_oneOf _).congr
  apply mem_iff_of_forall_ascii
  · intro c hc
    have hrange := Text.toNat_of_isAlpha hc
    omega
  · decide +kernel
  · decide +kernel

theorem mem_digits_iff {text : Text} :
    text ∈ digits.matches' ↔ text ≠ [] ∧ ∀ c ∈ text, c.isDigit = true :=
  selects_digit.mem_repeated_iff

theorem mem_letters_iff {text : Text} :
    text ∈ letters.matches' ↔ text ≠ [] ∧ ∀ c ∈ text, c.isAlpha = true :=
  selects_letter.mem_repeated_iff

/-- The operands are the texts of numbers and names. -/
theorem mem_operand_iff {text : Text} :
    text ∈ operand.matches' ↔ ∃ atom : Atom, atom.text = text := by
  rw [operand, matches'_add, Language.mem_add, mem_digits_iff, mem_letters_iff]
  constructor
  · rintro (⟨hne, hdigits⟩ | ⟨hne, hletters⟩)
    · exact ⟨.number text hne hdigits, rfl⟩
    · exact ⟨.name text hne hletters, rfl⟩
  · rintro ⟨atom, rfl⟩
    cases atom with
    | number digits hne hdigits => exact Or.inl ⟨hne, hdigits⟩
    | name letters hne hletters => exact Or.inr ⟨hne, hletters⟩

theorem mem_sign_iff {text : Text} :
    text ∈ sign.matches' ↔ ∃ found : Sign, text = [found.symbol] := by
  rw [sign, selects_oneOf]
  constructor
  · rintro ⟨c, hc, rfl⟩
    have hc : c = '+' ∨ c = '-' := by simpa using hc
    rcases hc with rfl | rfl
    · exact ⟨.plus, rfl⟩
    · exact ⟨.minus, rfl⟩
  · rintro ⟨found, rfl⟩
    exact ⟨found.symbol, by cases found <;> decide, rfl⟩

theorem concat_le_iff {first second whole : Language Char} :
    first * second ≤ whole ↔ ∀ front ∈ first, ∀ back ∈ second, front ++ back ∈ whole :=
  Set.image2_subset_iff

theorem mem_joint_iff {text : Text} :
    text ∈ joint.matches' ↔
      (∃ sign count, text = Sign.symbol sign :: List.replicate count sign.symbol) ∨
        ∃ c, (c = '*' ∨ c = '/' ∨ c = '^') ∧ text = [c] := by
  have hrun (c : Char) : text ∈ (repeated (.char c)).matches' ↔
      ∃ count, text = c :: List.replicate count c := by
    rw [(selects_char c).mem_repeated_iff]
    constructor
    · rintro ⟨hne, hall⟩
      obtain ⟨d, more, rfl⟩ := List.exists_cons_of_ne_nil hne
      obtain ⟨rfl, hmore⟩ := List.forall_mem_cons.mp hall
      exact ⟨more.length, congrArg _ (List.eq_replicate_iff.mpr ⟨rfl, hmore⟩)⟩
    · rintro ⟨count, rfl⟩
      exact ⟨List.cons_ne_nil _ _, by simp⟩
  simp only [joint, RegularExpression.matches'_add, Language.mem_add, hrun, selects_char _ text]
  constructor
  · rintro ((((⟨count, rfl⟩ | ⟨count, rfl⟩) | ⟨c, rfl, rfl⟩) | ⟨c, rfl, rfl⟩) | ⟨c, rfl, rfl⟩)
    · exact Or.inl ⟨.plus, count, rfl⟩
    · exact Or.inl ⟨.minus, count, rfl⟩
    all_goals exact Or.inr ⟨_, by simp, rfl⟩
  · rintro (⟨sign, count, rfl⟩ | ⟨c, rfl | rfl | rfl, rfl⟩)
    · cases sign with
      | plus => exact Or.inl (Or.inl (Or.inl (Or.inl ⟨count, rfl⟩)))
      | minus => exact Or.inl (Or.inl (Or.inl (Or.inr ⟨count, rfl⟩)))
    · exact Or.inl (Or.inl (Or.inr ⟨_, rfl, rfl⟩))
    · exact Or.inl (Or.inr ⟨_, rfl, rfl⟩)
    · exact Or.inr ⟨_, rfl, rfl⟩

end Pattern

end Calculator
