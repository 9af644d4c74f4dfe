import Calculator.Text.Basic

/-!
# Lines

An input is a sequence of lines. A carriage return, a line feed or both in this
order end a line; the last line needs no end.
-/

namespace Calculator.Text

/-- Put a character in front of the first of some lines. -/
def attachToLine (c : Char) : List Text → List Text
  | [] => [[c]]
  | line :: rest => (c :: line) :: rest

def lines : Text → List Text
  | [] => []
  | '\r' :: '\n' :: rest => [] :: lines rest
  | c :: rest => if c = '\n' || c = '\r' then [] :: lines rest else attachToLine c (lines rest)

end Calculator.Text
