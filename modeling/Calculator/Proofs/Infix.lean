import Calculator.Expr
import Calculator.Proofs.Characters

/-!
# Infix texts as derivations

A derivation says how a text is built as a sum of products of factors, and so
which characters it has, how it is listed and which number it denotes. `Infix 3`
holds the factors, `Infix 2` the products of factors, `Infix 1` the sums of
products. The symbols, the levels and the arithmetic are those of the grammar;
that the operators of the calculator have the same is proved here.
-/

namespace Calculator

theorem Operator.apply_eq_error {operator : Operator} {left right : Int} {fault : Fault}
    (hfault : operator.apply left right = .error fault) : fault = .divisionByZero := by
  cases operator with
  | divide =>
      rw [apply, Calculator.divide] at hfault
      split at hfault
      · exact (Except.error.inj hfault).symm
      · cases hfault
  | _ => cases hfault

/-- A sign in front of a factor. -/
inductive Sign where
  | plus
  | minus
  deriving DecidableEq, Repr

namespace Sign

def symbol : Sign → Char
  | .plus => '+'
  | .minus => '-'

def operator : Sign → Operator
  | .plus => .plus
  | .minus => .minus

theorem symbol_operator (sign : Sign) : sign.operator.symbol = sign.symbol := by
  cases sign <;> rfl

def applyTo : Sign → Int → Int
  | .plus, value => value
  | .minus, value => -value

def attachTo : Sign → Expr → Expr
  | .plus, tree => tree
  | .minus, tree => .negate tree

theorem eval_attachTo (table : Variables) (sign : Sign) (tree : Expr) :
    (sign.attachTo tree).eval table = (tree.eval table).map sign.applyTo := by
  cases sign with
  | plus => cases h : tree.eval table <;> simp [attachTo, h, Except.map, applyTo]
  | minus => rfl

/-- Of several signs the one next to the factor is applied first. -/
theorem eval_foldr_attachTo (table : Variables) (signs : List Sign) (tree : Expr) :
    (signs.foldr attachTo tree).eval table =
      (tree.eval table).map fun value => signs.foldr applyTo value := by
  induction signs with
  | nil => cases h : tree.eval table <;> simp [h, Except.map]
  | cons sign rest ih =>
      rw [List.foldr_cons, eval_attachTo, ih]
      cases tree.eval table <;> rfl

end Sign

/-- A number or a name as it stands in a text. -/
inductive Atom where
  | number (digits : Text) (hne : digits ≠ []) (hdigits : ∀ c ∈ digits, c.isDigit = true)
  | name (letters : Text) (hne : letters ≠ []) (hletters : ∀ c ∈ letters, c.isAlpha = true)

namespace Atom

def text : Atom → Text
  | .number digits _ _ => digits
  | .name letters _ _ => letters

/-- A number denotes what its digits spell, a name what the table binds it to. -/
def value (table : Variables) : Atom → Except Fault Int
  | .number digits _ _ => .ok (Nat.ofDigitChars 10 digits 0)
  | .name letters _ _ =>
      match table.get? letters with
      | some value => .ok value
      | none => .error (.unbound letters)

theorem text_ne_nil (atom : Atom) : atom.text ≠ [] := by
  cases atom <;> assumption

theorem operandValue_text (table : Variables) (atom : Atom) :
    Postfix.operandValue table atom.text = atom.value table := by
  cases atom with
  | number digits hne hdigits =>
      rw [text, Postfix.operandValue, if_pos (Numeral.isNumber_of_digits hne hdigits),
        Numeral.value, Numeral.read?_digits hne hdigits, value]
  | name letters hne hletters =>
      rw [text, Postfix.operandValue, Numeral.isNumber_eq_false_of_letters hne hletters,
        if_neg Bool.false_ne_true]
      rfl

theorem value_eq_error {table : Variables} {atom : Atom} {fault : Fault}
    (hfault : atom.value table = .error fault) :
    ∃ name, fault = .unbound name ∧ table.get? name = none := by
  cases atom with
  | number => cases hfault
  | name letters =>
      rw [value] at hfault
      split at hfault
      next => cases hfault
      next hnone => exact ⟨letters, (Except.error.inj hfault).symm, hnone⟩

theorem isAlphanum_of_mem_text {atom : Atom} {c : Char} (hc : c ∈ atom.text) :
    c.isAlphanum = true := by
  rw [Char.isAlphanum, Bool.or_eq_true]
  cases atom with
  | number digits _ hdigits => exact Or.inr (hdigits c hc)
  | name letters _ hletters => exact Or.inl (hletters c hc)

end Atom

/-- What joins the parts of a text, by the level of what they make: products are
joined to a sum, factors to a product. -/
inductive Connective : Nat → Type where
  | plus : Connective 1
  | minus : Connective 1
  | times : Connective 2
  | divide : Connective 2

namespace Connective

variable {level : Nat}

def symbol : Connective level → Char
  | .plus => '+'
  | .minus => '-'
  | .times => '*'
  | .divide => '/'

/-- What two numbers come to. A quotient is rounded toward zero, and a zero divisor
gives none. -/
def apply : Connective level → Int → Int → Except Fault Int
  | .plus, left, right => .ok (left + right)
  | .minus, left, right => .ok (left - right)
  | .times, left, right => .ok (left * right)
  | .divide, left, right =>
      if right = 0 then .error .divisionByZero else .ok (left.tdiv right)

def operator : Connective level → Operator
  | .plus => .plus
  | .minus => .minus
  | .times => .times
  | .divide => .divide

theorem symbol_operator (connective : Connective level) :
    connective.operator.symbol = connective.symbol := by
  cases connective <;> rfl

/-- Operators bind as strongly as the level says. -/
theorem strength_operator (connective : Connective level) :
    connective.operator.strength = level := by
  cases connective <;> rfl

theorem one_le_level (connective : Connective level) : 1 ≤ level := by
  cases connective <;> decide

theorem apply_operator (connective : Connective level) (left right : Int) :
    connective.operator.apply left right = connective.apply left right := by
  cases connective <;> rfl

end Connective

/-- The derivations of infix texts, by level. -/
inductive Infix : Nat → Type where
  /-- A number or a name behind any signs is a factor. -/
  | operand (signs : List Sign) (atom : Atom) : Infix 3
  /-- A sum in parentheses behind any signs is a factor. -/
  | group (signs : List Sign) (body : Infix 1) : Infix 3
  /-- A factor is a product of one factor, a product is a sum of one product. -/
  | loosen {level : Nat} (inner : Infix (level + 1)) : Infix level
  /-- A product goes on with a factor, a sum goes on with a product. -/
  | join {level : Nat} (connective : Connective level) (left : Infix level)
      (right : Infix (level + 1)) : Infix level

namespace Infix

def text {level : Nat} : Infix level → Text
  | .operand signs atom => signs.map Sign.symbol ++ atom.text
  | .group signs body => signs.map Sign.symbol ++ '(' :: (body.text ++ [')'])
  | .loosen inner => inner.text
  | .join connective left right => left.text ++ connective.symbol :: right.text

/-- The words of the listing from left to right, each symbol behind what it is applied
to. Of the signs in front of a factor the minuses are listed, as tildes. -/
def words {level : Nat} : Infix level → List Text
  | .operand signs atom => atom.text :: List.replicate (signs.count .minus) ['~']
  | .group signs body => body.words ++ List.replicate (signs.count .minus) ['~']
  | .loosen inner => inner.words
  | .join connective left right => left.words ++ right.words ++ [[connective.symbol]]

/-- The tree without parentheses and without signs that change nothing. -/
def tree {level : Nat} : Infix level → Expr
  | .operand signs atom => signs.foldr Sign.attachTo (.operand atom.text)
  | .group signs body => signs.foldr Sign.attachTo body.tree
  | .loosen inner => inner.tree
  | .join connective left right => .binary connective.operator left.tree right.tree

/-- The number that a text denotes, found from left to right, or the first
fault on the way to it. -/
def value {level : Nat} (table : Variables) : Infix level → Except Fault Int
  | .operand signs atom => (atom.value table).map fun number => signs.foldr Sign.applyTo number
  | .group signs body => (body.value table).map fun number => signs.foldr Sign.applyTo number
  | .loosen inner => inner.value table
  | .join connective left right =>
      (left.value table).bind fun first =>
        (right.value table).bind fun second => connective.apply first second

/-- The operands' openings: for each operand from left to right the signs and
parentheses between it and the operator before it, or the start of the text. -/
def openings {level : Nat} : Infix level → List Text
  | .operand signs _ => [signs.map Sign.symbol]
  | .group signs body => body.openings.modifyHead (signs.map Sign.symbol ++ '(' :: ·)
  | .loosen inner => inner.openings
  | .join _ left right => left.openings ++ right.openings

def isJoined {level : Nat} : Infix level → Bool
  | .operand _ _ => false
  | .group _ body => body.isJoined
  | .loosen inner => inner.isJoined
  | .join _ _ _ => true

/-- Whether each factor has at most one sign in front of it. -/
def OneSigned {level : Nat} : Infix level → Prop
  | .operand signs _ => signs.length ≤ 1
  | .group signs body => signs.length ≤ 1 ∧ body.OneSigned
  | .loosen inner => inner.OneSigned
  | .join _ left right => left.OneSigned ∧ right.OneSigned

/-- Evaluating the tree of a derivation gives the number that the text denotes. -/
theorem eval_tree {level : Nat} (table : Variables) (d : Infix level) :
    d.tree.eval table = d.value table := by
  induction d with
  | operand signs atom =>
      rw [tree, Sign.eval_foldr_attachTo, Expr.eval, Atom.operandValue_text, value]
  | group signs body ih => rw [tree, Sign.eval_foldr_attachTo, ih, value]
  | loosen inner ih => rw [tree, ih, value]
  | join connective left right ihleft ihright =>
      rw [tree, Expr.eval, ihleft, ihright, value]
      simp only [Connective.apply_operator]

theorem value_eq_error {level : Nat} {table : Variables} {d : Infix level} {fault : Fault}
    (hfault : d.value table = .error fault) :
    fault = .divisionByZero ∨ ∃ name, fault = .unbound name ∧ table.get? name = none := by
  induction d with
  | operand signs atom =>
      rw [value] at hfault
      cases hatom : atom.value table with
      | ok number => rw [hatom] at hfault; cases hfault
      | error found =>
          rw [hatom] at hfault
          cases hfault
          exact Or.inr (Atom.value_eq_error hatom)
  | group signs body ih =>
      rw [value] at hfault
      cases hbody : body.value table with
      | ok number => rw [hbody] at hfault; cases hfault
      | error found =>
          rw [hbody] at hfault
          cases hfault
          exact ih hbody
  | loosen inner ih => exact ih hfault
  | join connective left right ihleft ihright =>
      rw [value] at hfault
      cases hleft : left.value table with
      | error found =>
          rw [hleft] at hfault
          cases hfault
          exact ihleft hleft
      | ok first =>
          cases hright : right.value table with
          | error found =>
              rw [hleft, hright] at hfault
              cases hfault
              exact ihright hright
          | ok second =>
              rw [hleft, hright] at hfault
              have happly := (connective.apply_operator first second).trans hfault
              exact Or.inl (Operator.apply_eq_error happly)

end Infix

end Calculator
