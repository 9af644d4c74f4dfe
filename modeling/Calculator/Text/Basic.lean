/-!
# Texts and ranges of characters

A text is a list of characters, so that every function on it is a recursion on
the list. A class of characters beyond ASCII is given by closed ranges of code
points, taken from version 14 of the Unicode character database.
-/

namespace Calculator

/-- A line of input, a name, or any other text that is read or written. -/
abbrev Text := List Char

namespace Text

/-- A closed range of code points, by its first and its last member. -/
abbrev CodeRange := Nat × Nat

/-- Whether a character lies in one of the ranges. -/
def inRanges (ranges : List CodeRange) (c : Char) : Bool :=
  ranges.any fun range => range.1 ≤ c.toNat && c.toNat ≤ range.2

/-- Remove the characters of a class from both ends. -/
def trim (drop : Char → Bool) (text : Text) : Text :=
  ((text.dropWhile drop).reverse.dropWhile drop).reverse

/-- Nothing is removed from a text without characters of the class. -/
theorem trim_eq_self {drop : Char → Bool} {text : Text} (hkept : ∀ c ∈ text, drop c = false) :
    text.trim drop = text := by
  have hfirst : text.dropWhile drop = text := by
    cases text with
    | nil => rfl
    | cons c rest =>
        rw [List.dropWhile_cons, hkept c List.mem_cons_self]
        rfl
  have hlast : text.reverse.dropWhile drop = text.reverse := by
    cases hreverse : text.reverse with
    | nil => rfl
    | cons c rest =>
        have hmem : c ∈ text := List.mem_reverse.mp (hreverse ▸ List.mem_cons_self)
        rw [List.dropWhile_cons, hkept c hmem]
        rfl
  rw [trim, hfirst, hlast, List.reverse_reverse]

/-- The texts, with a separator between each two. -/
def join (separator : Text) (texts : List Text) : Text :=
  separator.intercalate texts

end Text

end Calculator
