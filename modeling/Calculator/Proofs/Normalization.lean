import Calculator.Proofs.Outlines
import Calculator.Proofs.Precedence
import Calculator.Proofs.SignParity

/-! # What normalizing does to a derivation

Settling the signs of a derived text gives a text that derives too. A run of signs
behind a plus or a minus is taken into that operator, and every other run becomes
one sign of a first factor. Such a sign stands before a whole product, which is
harmless, because products and quotients change their sign with their first factor.
-/

namespace Calculator

open Postfix

theorem Signs.isSign_eq_false_of_isAlphanum {c : Char} (hc : c.isAlphanum = true) :
    isSign c = false := by
  rw [← Bool.not_eq_true]
  intro hsign
  rcases eq_or_eq_of_isSign hsign with rfl | rfl <;> cases hc

namespace Sign

/-- The sign that two signs in a row come to. -/
def combine : Sign → Sign → Sign
  | .plus, second => second
  | .minus, .plus => .minus
  | .minus, .minus => .plus

/-- The sign that a sign comes to with further signs behind it. -/
def total (sign : Sign) (signs : List Sign) : Sign :=
  signs.foldl combine sign

/-- The one sign that stands for a run of signs, if there are any. -/
def reduced : List Sign → List Sign
  | [] => []
  | sign :: rest => [sign.total rest]

theorem symbol_combine (first second : Sign) :
    (first.combine second).symbol = Signs.combine first.symbol second.symbol := by
  cases first <;> cases second <;> rfl

theorem applyTo_combine (first second : Sign) (value : Int) :
    (first.combine second).applyTo value = first.applyTo (second.applyTo value) := by
  cases first <;> cases second <;> simp [combine, applyTo]

theorem applyTo_total (sign : Sign) (signs : List Sign) (value : Int) :
    (sign.total signs).applyTo value = sign.applyTo (signs.foldr applyTo value) := by
  induction signs generalizing sign with
  | nil => rfl
  | cons next rest ih =>
      change ((sign.combine next).total rest).applyTo value = _
      rw [ih, applyTo_combine, List.foldr_cons]

theorem foldr_applyTo_reduced (signs : List Sign) (value : Int) :
    (reduced signs).foldr applyTo value = signs.foldr applyTo value := by
  cases signs with
  | nil => rfl
  | cons sign rest => exact applyTo_total sign rest value

/-- A run of signs in front of a text that begins with no sign becomes one sign. -/
theorem absorb_signs (sign : Sign) (signs : List Sign) (text : Text) :
    Signs.absorb sign.symbol ((signs.map symbol).foldr Signs.absorb text) =
      Signs.absorb (sign.total signs).symbol text := by
  induction signs generalizing sign with
  | nil => rfl
  | cons next rest ih =>
      rw [List.map_cons, List.foldr_cons, Signs.absorb_absorb sign.isSign_symbol next.isSign_symbol,
        ← symbol_combine, ih]
      rfl

theorem foldr_absorb (signs : List Sign) {text : Text}
    (htext : text.head?.any Signs.isSign = false) :
    (signs.map symbol).foldr Signs.absorb text = (reduced signs).map symbol ++ text := by
  cases signs with
  | nil => rfl
  | cons sign rest =>
      rw [List.map_cons, List.foldr_cons, absorb_signs, Signs.absorb_of_head? _ htext]
      rfl

/-- What a sign is between two products. -/
def connective : Sign → Connective 1
  | .plus => .plus
  | .minus => .minus

theorem symbol_connective (sign : Sign) : sign.connective.symbol = sign.symbol := by
  cases sign <;> rfl

/-- Adding and subtracting differ by the sign of the second summand. -/
theorem apply_connective (sign : Sign) (first second : Int) :
    sign.connective.apply first second = .ok (first + sign.applyTo second) := by
  cases sign with
  | plus => rfl
  | minus => exact congrArg Except.ok Int.sub_eq_add_neg

theorem apply_connective_total (sign : Sign) (signs : List Sign) (first second : Int) :
    (sign.total signs).connective.apply first second =
      sign.connective.apply first (signs.foldr applyTo second) := by
  rw [apply_connective, apply_connective, applyTo_total]

/-- Products and quotients change their sign with their first factor. -/
theorem apply_applyTo {level : Nat} (connective : Connective level) (hlevel : 2 ≤ level)
    (sign : Sign) (first second : Int) :
    connective.apply (sign.applyTo first) second =
      (connective.apply first second).map sign.applyTo := by
  cases sign with
  | plus => cases h : connective.apply first second <;> simp [applyTo, h, Except.map]
  | minus =>
      cases connective with
      | plus | minus => exact absurd hlevel (by decide)
      | times => exact congrArg Except.ok (Int.neg_mul first second)
      | divide =>
          simp only [Connective.apply, applyTo, Int.neg_tdiv]
          split <;> rfl

theorem apply_foldr_applyTo {level : Nat} (connective : Connective level) (hlevel : 2 ≤ level)
    (signs : List Sign) (first second : Int) :
    connective.apply (signs.foldr applyTo first) second =
      (connective.apply first second).map (fun value => signs.foldr applyTo value) := by
  induction signs with
  | nil => cases h : connective.apply first second <;> simp [h, Except.map]
  | cons sign rest ih =>
      rw [List.foldr_cons, apply_applyTo connective hlevel, ih, map_map]
      rfl

end Sign

namespace Infix

/-- The signs that a text begins with. -/
def lead {level : Nat} : Infix level → List Sign
  | .operand signs _ => signs
  | .group signs _ => signs
  | .loosen inner => inner.lead
  | .join _ left _ => left.lead

/-- Put signs in front of the first factor. -/
def signed {level : Nat} (signs : List Sign) : Infix level → Infix level
  | .operand inner atom => .operand (signs ++ inner) atom
  | .group inner body => .group (signs ++ inner) body
  | .loosen inner => .loosen (inner.signed signs)
  | .join connective left right => .join connective (left.signed signs) right

/-- Join two parts where signs stand in front of the right one. A plus or a minus
takes them in. -/
def meet {level : Nat} (connective : Connective level) (left : Infix level) (signs : List Sign)
    (right : Infix (level + 1)) : Infix level :=
  match level, connective, left, right with
  | _, .plus, left, right => .join (Sign.plus.total signs).connective left right
  | _, .minus, left, right => .join (Sign.minus.total signs).connective left right
  | _, .times, left, right => .join .times left (right.signed (Sign.reduced signs))
  | _, .divide, left, right => .join .divide left (right.signed (Sign.reduced signs))

/-- The derivation with each run of signs made one, and without the signs that it
begins with. -/
def core {level : Nat} : Infix level → Infix level
  | .operand _ atom => .operand [] atom
  | .group _ body => .group [] (body.core.signed (Sign.reduced body.lead))
  | .loosen inner => .loosen inner.core
  | .join connective left right => meet connective left.core right.lead right.core

/-- The derivation with each run of signs made one. -/
def settle {level : Nat} (d : Infix level) : Infix level :=
  d.core.signed (Sign.reduced d.lead)

theorem text_signed {level : Nat} (signs : List Sign) (d : Infix level) :
    (d.signed signs).text = signs.map Sign.symbol ++ d.text := by
  induction d with
  | operand inner atom => simp [signed, text]
  | group inner body => simp [signed, text]
  | loosen inner ih => exact ih
  | join connective left right ihleft => rw [signed, text, ihleft, text, List.append_assoc]

/-- Signs in front of a product apply to the product. -/
theorem value_signed {level : Nat} (table : Variables) (signs : List Sign)
    (d : Infix level) (hlevel : 2 ≤ level) :
    (d.signed signs).value table =
      (d.value table).map fun value => signs.foldr Sign.applyTo value := by
  induction d with
  | operand inner atom => simp only [signed, value, map_map, List.foldr_append]
  | group inner body => simp only [signed, value, map_map, List.foldr_append]
  | loosen inner ih => exact ih (Nat.le_succ_of_le hlevel)
  | join connective left right ihleft =>
      rw [signed, value, ihleft hlevel, value]
      cases left.value table with
      | error fault => rfl
      | ok first =>
          cases right.value table with
          | error fault => rfl
          | ok second => exact Sign.apply_foldr_applyTo connective hlevel signs first second

theorem signed_meet {level : Nat} (connective : Connective level) (left : Infix level)
    (inner : List Sign) (right : Infix (level + 1)) (signs : List Sign) :
    (meet connective left inner right).signed signs =
      meet connective (left.signed signs) inner right := by
  cases connective <;> rfl

section Text

variable {signs : List Sign} {rest : Text}

theorem text_join_total_append (left : Infix 1) (sign : Sign) {right : Infix 2}
    (hright : (right.text ++ rest).head?.any Signs.isSign = false) :
    (join (sign.total signs).connective left right).text ++ rest =
      left.text ++ Signs.absorb sign.symbol
        ((signs.map Sign.symbol).foldr Signs.absorb (right.text ++ rest)) := by
  rw [Sign.absorb_signs, Signs.absorb_of_head? _ hright, text, Sign.symbol_connective,
    List.append_assoc, List.cons_append]

theorem text_join_signed_append {level : Nat} {connective : Connective level} (left : Infix level)
    {right : Infix (level + 1)} (hconnective : Signs.isSign connective.symbol = false)
    (hright : (right.text ++ rest).head?.any Signs.isSign = false) :
    (join connective left (right.signed (Sign.reduced signs))).text ++ rest =
      left.text ++ Signs.absorb connective.symbol
        ((signs.map Sign.symbol).foldr Signs.absorb (right.text ++ rest)) := by
  rw [Signs.absorb_of_not_isSign hconnective, Sign.foldr_absorb _ hright, text, text_signed]
  simp only [List.append_assoc, List.cons_append]

/-- Joining two parts settles what joins them and the signs behind it. -/
theorem text_meet_append {level : Nat} (connective : Connective level) (left : Infix level)
    {right : Infix (level + 1)} (hright : (right.text ++ rest).head?.any Signs.isSign = false) :
    (meet connective left signs right).text ++ rest =
      left.text ++ Signs.absorb connective.symbol
        ((signs.map Sign.symbol).foldr Signs.absorb (right.text ++ rest)) := by
  cases connective with
  | plus => exact text_join_total_append left .plus hright
  | minus => exact text_join_total_append left .minus hright
  | times => exact text_join_signed_append left rfl hright
  | divide => exact text_join_signed_append left rfl hright

end Text

/-- A text without its leading signs begins with none. -/
theorem head?_core_append {level : Nat} (d : Infix level) (rest : Text) :
    (d.core.text ++ rest).head?.any Signs.isSign = false := by
  induction d generalizing rest with
  | operand signs atom =>
      obtain ⟨c, more, hatom⟩ := List.exists_cons_of_ne_nil atom.text_ne_nil
      have hc : c ∈ atom.text := hatom ▸ List.mem_cons_self
      change (atom.text ++ rest).head?.any Signs.isSign = false
      rw [hatom]
      exact Signs.isSign_eq_false_of_isAlphanum (Atom.isAlphanum_of_mem_text hc)
  | group signs body => rfl
  | loosen inner ih => exact ih rest
  | join connective left right ihleft ihright =>
      rw [core, text_meet_append connective left.core (ihright rest)]
      exact ihleft _

/-- Settling a text that goes on with a derived text meets its leading signs, and
behind them a text in which no run is left. -/
theorem settle_text_append {level : Nat} (d : Infix level) (rest : Text) :
    Signs.settle (d.text ++ rest) =
      (d.lead.map Sign.symbol).foldr Signs.absorb (d.core.text ++ Signs.settle rest) := by
  induction d generalizing rest with
  | operand signs atom =>
      have hatom : ∀ c ∈ atom.text, Signs.isSign c = false :=
        fun c hc => Signs.isSign_eq_false_of_isAlphanum (Atom.isAlphanum_of_mem_text hc)
      rw [text, List.append_assoc, Signs.settle_append_foldr, Signs.settle_append hatom]
      rfl
  | group signs body ih =>
      rw [text, List.append_assoc, Signs.settle_append_foldr, List.cons_append, List.append_assoc,
        Signs.settle_cons, Signs.absorb_of_not_isSign rfl, ih,
        Sign.foldr_absorb _ (body.head?_core_append _), List.singleton_append, Signs.settle_cons,
        Signs.absorb_of_not_isSign rfl, core, text, text_signed]
      simp only [List.map_nil, List.nil_append, List.append_assoc, List.cons_append, lead]
  | loosen inner ih => exact ih rest
  | join connective left right ihleft ihright =>
      rw [text, List.append_assoc, List.cons_append, ihleft, Signs.settle_cons, ihright, core,
        text_meet_append connective left.core (right.head?_core_append _)]
      rfl

theorem text_settle {level : Nat} (d : Infix level) :
    d.settle.text = Signs.settle d.text := by
  have hsettle := d.settle_text_append []
  rw [List.append_nil, Sign.foldr_absorb _ (d.head?_core_append _)] at hsettle
  rw [hsettle, settle, text_signed]
  exact congrArg _ (List.append_nil _).symm

theorem value_join_total (table : Variables) (left : Infix 1) (sign : Sign) (signs : List Sign)
    (right : Infix 2) :
    (join (sign.total signs).connective left right).value table =
      (left.value table).bind fun first =>
        ((right.value table).map fun value => signs.foldr Sign.applyTo value).bind fun second =>
          sign.connective.apply first second := by
  simp only [value, map_bind, Sign.apply_connective_total]

theorem value_join_signed (table : Variables) {level : Nat} (connective : Connective level)
    (left : Infix level) (signs : List Sign) (right : Infix (level + 1)) (hlevel : 1 ≤ level) :
    (join connective left (right.signed (Sign.reduced signs))).value table =
      (left.value table).bind fun first =>
        ((right.value table).map fun value => signs.foldr Sign.applyTo value).bind fun second =>
          connective.apply first second := by
  rw [value, value_signed table _ right (Nat.succ_le_succ hlevel)]
  simp only [Sign.foldr_applyTo_reduced]

/-- Joining two parts applies the signs between them to the right one. -/
theorem value_meet (table : Variables) {level : Nat} (connective : Connective level)
    (left : Infix level) (signs : List Sign) (right : Infix (level + 1)) :
    (meet connective left signs right).value table =
      (left.value table).bind fun first =>
        ((right.value table).map fun value => signs.foldr Sign.applyTo value).bind fun second =>
          connective.apply first second := by
  cases connective with
  | plus => exact value_join_total table left .plus signs right
  | minus => exact value_join_total table left .minus signs right
  | times => exact value_join_signed table .times left signs right (by decide)
  | divide => exact value_join_signed table .divide left signs right (by decide)

/-- A product is the product without its leading signs, with those signs applied. -/
theorem map_value_core {level : Nat} {table : Variables} {d : Infix level}
    (hsettle : d.settle.value table = d.value table) (hlevel : 2 ≤ level) :
    ((d.core.value table).map fun value => d.lead.foldr Sign.applyTo value) = d.value table := by
  rw [← hsettle, settle, value_signed table _ _ hlevel]
  simp only [Sign.foldr_applyTo_reduced]

/-- A text denotes the same with one sign for each run of signs. -/
theorem value_settle {level : Nat} (table : Variables) (d : Infix level) :
    d.settle.value table = d.value table := by
  induction d with
  | operand signs atom =>
      simp only [settle, core, signed, lead, List.append_nil, value, Sign.foldr_applyTo_reduced]
  | group signs body ih =>
      rw [settle] at ih
      simp only [settle, core, signed, lead, List.append_nil, value, Sign.foldr_applyTo_reduced, ih]
  | loosen inner ih => exact ih
  | join connective left right ihleft ihright =>
      -- the signs in front of the right part are those in front of its first factor
      have hlevel := Nat.succ_le_succ connective.one_le_level
      rw [settle, core, signed_meet, value_meet, map_value_core ihright hlevel]
      exact congrArg (Except.bind · _) ihleft

/-- The stream of a derived text evaluates to what the text denotes. -/
theorem evaluate_read_write (table : Variables) (d : Infix 1) :
    evaluate table (read (write d.tree.postorder)) = d.value table := by
  rw [read_write_of_ofInfix d.ofInfix_text, Expr.evaluate_postorder, eval_tree]

/-- Normalizing a derived text keeps its meaning. Both texts have a postfix form, and
both streams come to the same number or to the same fault, which is an unbound name
or a zero divisor. -/
theorem evaluate_normalize (d : Infix 1) :
    ∃ stream normal, (ofInfix d.text).map write = .ok stream ∧
      (ofInfix (Signs.normalize d.text)).map write = .ok normal ∧
      ∀ table : Variables, evaluate table (read normal) = evaluate table (read stream) ∧
        ((∃ value, evaluate table (read stream) = .ok value) ∨
          (∃ name, evaluate table (read stream) = .error (.unbound name) ∧
            table.get? name = none) ∨
          evaluate table (read stream) = .error .divisionByZero) := by
  refine ⟨write d.tree.postorder, write d.settle.tree.postorder, ?_, ?_, fun table => ⟨?_, ?_⟩⟩
  · rw [ofInfix_text]
    rfl
  · rw [Signs.normalize_eq_settle, ← text_settle, ofInfix_text]
    rfl
  · rw [evaluate_read_write, evaluate_read_write, value_settle]
  · rw [evaluate_read_write]
    cases hvalue : d.value table with
    | ok value => exact Or.inl ⟨value, rfl⟩
    | error fault =>
        rcases value_eq_error hvalue with rfl | ⟨name, rfl, hunbound⟩
        · exact Or.inr (Or.inr rfl)
        · exact Or.inr (Or.inl ⟨name, rfl, hunbound⟩)

end Infix

end Calculator
