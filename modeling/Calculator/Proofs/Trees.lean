import Calculator.Proofs.Infix
import Calculator.Proofs.Results

/-! # Trees and their listings

Where every name of a tree is bound and no divisor is zero, the value of the tree is
found without an order of evaluation. In a listing each operation stands after what
it is applied to, so a stack of trees puts the listed tree together again: a listing
is the listing of one tree only.
-/

namespace Calculator

namespace Operator

/-- What an operator comes to, where its right operand is no zero divisor. -/
def result : Operator → Int → Int → Int
  | .plus, left, right => left + right
  | .minus, left, right => left - right
  | .times, left, right => left * right
  | .divide, left, right => left.tdiv right

theorem apply_eq_ok_iff {operator : Operator} {left right value : Int} :
    operator.apply left right = .ok value ↔
      (operator = .divide → right ≠ 0) ∧ operator.result left right = value := by
  cases operator with
  | divide =>
      rw [apply, Calculator.divide]
      split
      next hzero => simp [hzero]
      next hzero => simp [hzero, result]
  | _ => simp [apply, result]

theorem apply_eq_error_iff {operator : Operator} {left right : Int} {fault : Fault} :
    operator.apply left right = .error fault ↔
      operator = .divide ∧ right = 0 ∧ fault = .divisionByZero := by
  cases operator with
  | divide =>
      rw [apply, Calculator.divide]
      split
      next hzero => simp [hzero, eq_comm]
      next hzero => simp [hzero]
  | _ => simp [apply]

end Operator

/-- Whether a text is a run of ASCII digits. -/
def Text.isDigits (text : Text) : Bool :=
  !text.isEmpty && text.all Char.isDigit

theorem Text.isDigits_iff {text : Text} :
    text.isDigits = true ↔ text ≠ [] ∧ ∀ c ∈ text, c.isDigit = true := by
  simp [isDigits]

/-- Whether the digit characters of a text are those of ASCII. -/
def Text.HasPlainDigits (text : Text) : Prop :=
  ∀ c ∈ text, isDigitForm c = true → c.isDigit = true

instance (text : Text) : Decidable text.HasPlainDigits :=
  decidable_of_iff (text.all fun c => !Text.isDigitForm c || c.isDigit) <| by
    simp [Text.HasPlainDigits, Decidable.imp_iff_not_or]

theorem Numeral.isNumber_eq_isDigits {text : Text} (hplain : text.HasPlainDigits) :
    isNumber text = text.isDigits := by
  rw [Bool.eq_iff_iff, Text.isDigits_iff]
  constructor
  · intro hnumber
    rw [isNumber, Bool.and_eq_true, Bool.not_eq_true', List.isEmpty_eq_false_iff,
      List.all_eq_true] at hnumber
    exact ⟨hnumber.1, fun c hc => hplain c hc (hnumber.2 c hc)⟩
  · rintro ⟨hne, hdigits⟩
    exact isNumber_of_digits hne hdigits

namespace Expr

open Postfix

/-- What a digit run spells, or else what a table binds a name to. -/
def leafValue (table : Variables) (leaf : Text) : Int :=
  if leaf.isDigits then Nat.ofDigitChars 10 leaf 0 else (table.get? leaf).getD 0

/-- The value of a tree in which every name is bound and no divisor is zero. -/
def value (table : Variables) : Expr → Int
  | .operand leaf => leafValue table leaf
  | .negate body => -body.value table
  | .binary operator left right => operator.result (left.value table) (right.value table)

/-- The operands of a tree from left to right. -/
def leaves : Expr → List Text
  | .operand leaf => [leaf]
  | .negate body => body.leaves
  | .binary _ left right => left.leaves ++ right.leaves

/-- Whether every name in a tree is bound. -/
def Bound (table : Variables) (tree : Expr) : Prop :=
  ∀ leaf ∈ tree.leaves, leaf.isDigits = false → table.contains leaf = true

/-- Whether no division in a tree has a zero divisor. -/
def Divides (table : Variables) : Expr → Prop
  | .operand _ => True
  | .negate body => body.Divides table
  | .binary operator left right =>
      left.Divides table ∧ right.Divides table ∧ (operator = .divide → right.value table ≠ 0)

variable {table : Variables}

theorem bound_binary_iff {operator : Operator} {left right : Expr} :
    (binary operator left right).Bound table ↔ left.Bound table ∧ right.Bound table :=
  List.forall_mem_append

theorem operandValue_eq {leaf : Text} (hplain : leaf.HasPlainDigits) :
    operandValue table leaf =
      if leaf.isDigits = false ∧ table.get? leaf = none then .error (.unbound leaf)
      else .ok (leafValue table leaf) := by
  rw [operandValue, Numeral.isNumber_eq_isDigits hplain, leafValue]
  cases hdigits : leaf.isDigits with
  | true =>
      obtain ⟨hne, hall⟩ := Text.isDigits_iff.mp hdigits
      simp [Numeral.value, Numeral.read?_digits hne hall]
  | false => cases table.get? leaf <;> simp

/-- A tree is evaluated to its value if its names are bound and its divisors are not
zero, and to no value otherwise. -/
theorem eval_eq_ok_iff {tree : Expr} (hplain : ∀ leaf ∈ tree.leaves, leaf.HasPlainDigits)
    {value : Int} : tree.eval table = .ok value ↔
      (tree.Bound table ∧ tree.Divides table) ∧ tree.value table = value := by
  induction tree generalizing value with
  | operand leaf =>
      rw [eval, operandValue_eq (hplain leaf List.mem_cons_self)]
      cases hdigits : leaf.isDigits <;> cases hget : table.get? leaf <;>
        simp [Bound, leaves, Divides, Expr.value, Variables.contains, hdigits, hget]
  | negate body ih =>
      rw [eval, map_eq_ok_iff]
      constructor
      · rintro ⟨found, hfound, rfl⟩
        obtain ⟨hbody, rfl⟩ := (ih hplain).mp hfound
        exact ⟨hbody, rfl⟩
      · rintro ⟨hbody, rfl⟩
        exact ⟨_, (ih hplain).mpr ⟨hbody, rfl⟩, rfl⟩
  | binary operator left right ihleft ihright =>
      obtain ⟨hleft, hright⟩ := List.forall_mem_append.mp hplain
      rw [eval, bind_eq_ok_iff, bound_binary_iff]
      constructor
      · rintro ⟨first, hfirst, hrest⟩
        obtain ⟨second, hsecond, happly⟩ := bind_eq_ok_iff.mp hrest
        obtain ⟨⟨hboundleft, hdivleft⟩, rfl⟩ := (ihleft hleft).mp hfirst
        obtain ⟨⟨hboundright, hdivright⟩, rfl⟩ := (ihright hright).mp hsecond
        obtain ⟨hzero, hresult⟩ := Operator.apply_eq_ok_iff.mp happly
        exact ⟨⟨⟨hboundleft, hboundright⟩, hdivleft, hdivright, hzero⟩, hresult⟩
      · rintro ⟨⟨⟨hboundleft, hboundright⟩, hdivleft, hdivright, hzero⟩, hresult⟩
        refine ⟨_, (ihleft hleft).mpr ⟨⟨hboundleft, hdivleft⟩, rfl⟩, bind_eq_ok_iff.mpr ?_⟩
        refine ⟨_, (ihright hright).mpr ⟨⟨hboundright, hdivright⟩, rfl⟩, ?_⟩
        exact Operator.apply_eq_ok_iff.mpr ⟨hzero, hresult⟩

/-- Put an item on a stack of trees, latest first: an operand as a tree of its own, an
operation on top of the trees that it is applied to. -/
def assemble? : List Expr → Item → Option (List Expr)
  | trees, .operand leaf => some (.operand leaf :: trees)
  | body :: trees, .operation .negate => some (.negate body :: trees)
  | right :: left :: trees, .operation (.binary operator) =>
      some (.binary operator left right :: trees)
  | _, .operation _ => none

/-- The listing of a tree is put together to that tree. -/
theorem foldlM_assemble?_postorder (trees : List Expr) (tree : Expr) :
    tree.postorder.foldlM assemble? trees = some (tree :: trees) := by
  induction tree generalizing trees with
  | operand leaf => rfl
  | negate body ih =>
      rw [postorder, List.foldlM_append, ih]
      rfl
  | binary operator left right ihleft ihright =>
      rw [postorder, List.foldlM_append, List.foldlM_append, ihleft, Option.bind_eq_bind,
        Option.bind_some, ihright]
      rfl

theorem postorder_injective : Function.Injective postorder := by
  intro first second hlisting
  have htrees := foldlM_assemble?_postorder [] first
  rw [hlisting, foldlM_assemble?_postorder] at htrees
  exact (List.cons.inj (Option.some.inj htrees)).1.symm

end Expr

end Calculator
