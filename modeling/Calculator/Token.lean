import Calculator.Signs

/-!
# Tokens

A line is a sequence of tokens: runs of digits, runs of letters, runs of one
repeated sign, and single characters of all other kinds. No text is refused; a
character that belongs to no other kind is a token of the unknown kind. Digits
and letters are those of ASCII.
-/

namespace Calculator

inductive Token.Kind where
  | number
  | name
  | sign
  | operator
  | opening
  | closing
  | equals
  | unknown
  | endOfInput
  deriving DecidableEq, Repr

/-- A token: its kind and the characters that it stands for. -/
structure Token where
  kind : Token.Kind
  text : Text
  deriving DecidableEq, Repr

namespace Token

def Kind.ofChar (c : Char) : Kind :=
  if c.isDigit then .number
  else if c.isAlpha then .name
  else if Signs.isSign c then .sign
  else if c = '*' || c = '/' || c = '^' then .operator
  else if c = '(' then .opening
  else if c = ')' then .closing
  else if c = '=' then .equals
  else .unknown

def Kind.describe : Kind → String
  | .number => "NUMBER"
  | .name => "IDENTIFIER"
  | .sign => "SIGN"
  | .operator => "OPERATOR"
  | .opening => "LPAREN"
  | .closing => "RPAREN"
  | .equals => "EQUALS"
  | .unknown => "UNKNOWN"
  | .endOfInput => "EOF"

/-- Whether two neighbouring characters belong to one token: both are digits,
both are letters, or both are the same sign. -/
def joins (first second : Char) : Bool :=
  match Kind.ofChar first with
  | .number => second.isDigit
  | .name => second.isAlpha
  | .sign => first = second
  | _ => false

def single (c : Char) : Token :=
  ⟨Kind.ofChar c, [c]⟩

/-- Put a character in front of a token with which it forms one run. -/
def extend (c : Char) (token : Token) : Token :=
  { token with text := c :: token.text }

/-- Put a character in front of a sequence of tokens. -/
def attach (c : Char) : List Token → List Token
  | [] => [single c]
  | token :: rest =>
      if token.text.head?.any (joins c) then extend c token :: rest
      else single c :: token :: rest

def ofText (text : Text) : List Token :=
  text.foldr attach []

theorem flatMap_text_attach (c : Char) (tokens : List Token) :
    (attach c tokens).flatMap Token.text = c :: tokens.flatMap Token.text := by
  cases tokens with
  | nil => rfl
  | cons token rest =>
      rw [attach]
      split <;> rfl

/-- No character is lost and none is added. -/
theorem flatMap_text_ofText (text : Text) : (ofText text).flatMap Token.text = text := by
  induction text with
  | nil => rfl
  | cons c rest ih =>
      rw [ofText, List.foldr_cons, flatMap_text_attach]
      exact congrArg (c :: ·) ih

def isOperand (token : Token) : Bool :=
  token.kind = .number || token.kind = .name

/-- Whether a token is a sign that is not repeated. -/
def isSingleSign (token : Token) : Bool :=
  token.kind = .sign && token.text.length = 1

/-- A token together with the number of characters before it. -/
structure Placed where
  token : Token
  position : Nat
  deriving DecidableEq, Repr

/-- Place tokens one after the other and mark the end of the input. -/
def placeFrom (position : Nat) : List Token → List Placed
  | [] => [⟨⟨.endOfInput, []⟩, position⟩]
  | token :: rest => ⟨token, position⟩ :: placeFrom (position + token.text.length) rest

/-- The tokens of a text with their positions, and the end of the input. -/
def listing (text : Text) : List Placed :=
  placeFrom 0 (ofText text)

def Placed.describe (placed : Placed) : String :=
  s!"Token({placed.token.kind.describe}, {placed.token.text.quoted}, pos={placed.position})"

/-- A listing of tokens as it is shown in diagnostics. -/
def describeListing (listing : List Placed) : String :=
  "[" ++ String.intercalate ", " (listing.map Placed.describe) ++ "]"

end Token

end Calculator
