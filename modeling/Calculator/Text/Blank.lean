import Calculator.Text.Basic

/-!
# Blank characters

The blanks are the characters with the White_Space property and the four
information separators. A line of input is read without its blanks.
-/

namespace Calculator.Text

/-- The ranges of the blank characters. -/
def blankRanges : List CodeRange :=
  [(0x09, 0x0D), (0x1C, 0x20), (0x85, 0x85), (0xA0, 0xA0), (0x1680, 0x1680),
   (0x2000, 0x200A), (0x2028, 0x2029), (0x202F, 0x202F), (0x205F, 0x205F),
   (0x3000, 0x3000)]

def isBlank (c : Char) : Bool :=
  inRanges blankRanges c

theorem isBlank_eq_false_of_isDigit {c : Char} (hdigit : c.isDigit = true) :
    isBlank c = false := by
  have hrange : 48 ≤ c.toNat ∧ c.toNat ≤ 57 := Char.isDigit_iff_toNat.mp hdigit
  simp only [isBlank, blankRanges, inRanges, List.any_cons, List.any_nil, Bool.or_false,
    Bool.or_eq_false_iff, Bool.and_eq_false_iff, decide_eq_false_iff_not]
  omega

def strip (text : Text) : Text :=
  text.trim isBlank

/-- The text without any blanks. -/
def squeeze (text : Text) : Text :=
  text.filter fun c => !isBlank c

end Calculator.Text
