import Calculator.Text.Printable

/-!
# Quoted texts

Diagnostics show a text between quotation marks. The mark is the apostrophe
unless the text holds apostrophes and no double quotes. The mark, the backslash
and the characters that are not printable are written as escapes.
-/

namespace Calculator.Text

/-- The quotation mark that surrounds a text. -/
def quoteMark (text : Text) : Char :=
  if text.contains '\'' && !text.contains '"' then '"' else '\''

/-- A number in hexadecimal, padded with zeros to a width. -/
def hexadecimal (width n : Nat) : Text :=
  let digits := Nat.toDigits 16 n
  List.replicate (width - digits.length) '0' ++ digits

/-- A character as it stands between quotation marks: itself or an escape. -/
def escape (mark c : Char) : Text :=
  if c = mark || c = '\\' then ['\\', c]
  else if c = '\n' then ['\\', 'n']
  else if c = '\t' then ['\\', 't']
  else if c = '\r' then ['\\', 'r']
  else if isPrintable c then [c]
  else if c.toNat < 0x100 then '\\' :: 'x' :: hexadecimal 2 c.toNat
  else if c.toNat < 0x10000 then '\\' :: 'u' :: hexadecimal 4 c.toNat
  else '\\' :: 'U' :: hexadecimal 8 c.toNat

def quote (text : Text) : Text :=
  let mark := text.quoteMark
  mark :: text.flatMap (escape mark) ++ [mark]

/-- The quoted text as a string, for use in messages. -/
def quoted (text : Text) : String :=
  String.ofList text.quote

end Calculator.Text
