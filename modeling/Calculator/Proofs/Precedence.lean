import Calculator.Proofs.Infix
import Calculator.Proofs.Streams

/-! # Conversion of derived texts

What a conversion emits and what it leaves waiting after a derived text is
determined by the derivation alone, whatever surrounds the text. Operations of
lower strength that wait outside are not touched. Together the two parts are
the listing of the tree, so evaluating the stream evaluates the tree.
-/

namespace Calculator

open Postfix

namespace Sign

/-- The negations that wait after signs, the one next to the factor first. -/
def negations : List Sign → List Operation
  | [] => []
  | .plus :: rest => negations rest
  | .minus :: rest => negations rest ++ [.negate]

theorem eq_negate_of_mem_negations {signs : List Sign} {operation : Operation}
    (hmem : operation ∈ negations signs) : operation = .negate := by
  induction signs with
  | nil => cases hmem
  | cons sign rest ih =>
      cases sign with
      | plus => exact ih hmem
      | minus =>
          rcases List.mem_append.mp hmem with hrest | hlast
          · exact ih hrest
          · exact List.mem_singleton.mp hlast

theorem postorder_foldr_attachTo (signs : List Sign) (tree : Expr) :
    (signs.foldr attachTo tree).postorder =
      tree.postorder ++ (negations signs).map Item.operation := by
  induction signs with
  | nil => simp [negations]
  | cons sign rest ih =>
      cases sign with
      | plus => exact ih
      | minus =>
          rw [List.foldr_cons, attachTo, Expr.postorder, ih, negations, List.map_append,
            List.append_assoc]
          rfl

theorem isAlphanum_symbol (sign : Sign) : sign.symbol.isAlphanum = false := by
  cases sign <;> rfl

theorem convert_signs_append (signs : List Sign) (waiting : List Operation)
    (outer : List (List Operation)) (rest : List Lexeme) :
    convert waiting outer true (signs.map (fun sign => .operator sign.operator) ++ rest) =
      convert (negations signs ++ waiting) outer true rest := by
  induction signs generalizing waiting with
  | nil => rfl
  | cons sign others ih =>
      cases sign with
      | plus => exact ih waiting
      | minus =>
          rw [negations, List.append_assoc]
          exact ih (.negate :: waiting)

end Sign

theorem Connective.isAlphanum_symbol {level : Nat} (connective : Connective level) :
    connective.symbol.isAlphanum = false := by
  cases connective <;> rfl

namespace Infix

def lexemes {level : Nat} : Infix level → List Lexeme
  | .operand signs atom => signs.map (fun sign => .operator sign.operator) ++ [.operand atom.text]
  | .group signs body =>
      signs.map (fun sign => .operator sign.operator) ++ .opening :: (body.lexemes ++ [.closing])
  | .loosen inner => inner.lexemes
  | .join connective left right =>
      left.lexemes ++ .operator connective.operator :: right.lexemes

theorem ofText_signs_append (signs : List Sign) (rest : Text) :
    Lexeme.ofText (signs.map Sign.symbol ++ rest) =
      signs.map (fun sign => .operator sign.operator) ++ Lexeme.ofText rest := by
  induction signs with
  | nil => rfl
  | cons sign others ih =>
      rw [List.map_cons, List.cons_append, Lexeme.ofText_symbol_cons sign.isAlphanum_symbol, ih]
      cases sign <;> rfl

theorem ofSymbol_symbol {level : Nat} (connective : Connective level) :
    Lexeme.ofSymbol connective.symbol = .operator connective.operator := by
  cases connective <;> rfl

/-- A derived text has the lexemes of its derivation, unless its last operand
goes on behind it. -/
theorem ofText_text_append {level : Nat} (d : Infix level) {rest : Text}
    (hrest : Lexeme.beginsOperand rest = false) :
    Lexeme.ofText (d.text ++ rest) = d.lexemes ++ Lexeme.ofText rest := by
  induction d generalizing rest with
  | operand signs atom =>
      have hrun : ∀ c ∈ atom.text, c.isAlphanum = true :=
        fun c hc => Atom.isAlphanum_of_mem_text hc
      rw [text, List.append_assoc, ofText_signs_append,
        Lexeme.ofText_run_append atom.text_ne_nil hrun hrest, lexemes, List.append_assoc]
      rfl
  | group signs body ih =>
      have hbody : Lexeme.ofText (body.text ++ ')' :: rest) =
          body.lexemes ++ .closing :: Lexeme.ofText rest := by
        rw [ih rfl, Lexeme.ofText_symbol_cons (by rfl)]
        rfl
      rw [text, List.append_assoc, ofText_signs_append, List.cons_append,
        Lexeme.ofText_symbol_cons (by rfl), List.append_assoc, List.singleton_append, hbody,
        lexemes, List.append_assoc, List.cons_append, List.append_assoc]
      rfl
  | loosen inner ih => exact ih hrest
  | join connective left right ihleft ihright =>
      have hsymbol := connective.isAlphanum_symbol
      have hleft : Lexeme.ofText (left.text ++ connective.symbol :: (right.text ++ rest)) =
          left.lexemes ++ Lexeme.ofText (connective.symbol :: (right.text ++ rest)) := ihleft hsymbol
      rw [text, List.append_assoc, List.cons_append, hleft, Lexeme.ofText_symbol_cons hsymbol,
        ofSymbol_symbol, ihright hrest, lexemes, List.append_assoc]
      rfl

/-- The operations that wait after a derived text, latest first. -/
def pending {level : Nat} : Infix level → List Operation
  | .operand signs _ => Sign.negations signs
  | .group signs _ => Sign.negations signs
  | .loosen inner => inner.pending
  | .join connective _ right => right.pending ++ [.binary connective.operator]

/-- The items that are emitted while a derived text is read. -/
def emitted {level : Nat} : Infix level → List Item
  | .operand _ atom => [.operand atom.text]
  | .group _ body => body.emitted ++ body.pending.map .operation
  | .loosen inner => inner.emitted
  | .join _ left right => left.emitted ++ (left.pending.map .operation ++ right.emitted)

theorem emitted_append_pending {level : Nat} (d : Infix level) :
    d.emitted ++ d.pending.map .operation = d.tree.postorder := by
  induction d with
  | operand signs atom => rw [tree, Sign.postorder_foldr_attachTo]; rfl
  | group signs body ih => rw [tree, Sign.postorder_foldr_attachTo, ← ih]; rfl
  | loosen inner ih => exact ih
  | join connective left right ihleft ihright =>
      rw [tree, Expr.postorder, ← ihleft, ← ihright, emitted, pending]
      simp only [List.map_append, List.map_cons, List.map_nil, List.append_assoc]

theorem le_strength_of_mem_pending {level : Nat} {d : Infix level} {operation : Operation}
    (hmem : operation ∈ d.pending) : level ≤ operation.strength := by
  induction d with
  | operand signs atom => rw [Sign.eq_negate_of_mem_negations hmem]; exact Nat.le_refl 3
  | group signs body => rw [Sign.eq_negate_of_mem_negations hmem]; exact Nat.le_refl 3
  | loosen inner ih => exact Nat.le_of_succ_le (ih hmem)
  | join connective left right ihleft ihright =>
      rcases List.mem_append.mp hmem with hright | hlast
      · exact Nat.le_of_succ_le (ihright hright)
      · rw [List.mem_singleton.mp hlast]
        exact Nat.le_of_eq connective.strength_operator.symm

end Infix

/-- Whether no operator of a text of the given level releases what waits
outside the text. -/
def Shielded (level : Nat) (waiting : List Operation) : Prop :=
  ∀ operator : Operator, level ≤ operator.strength →
    waiting.takeWhile (precedes operator) = []

namespace Shielded

variable {level : Nat} {waiting : List Operation}

theorem nil (level : Nat) : Shielded level [] :=
  fun _ _ => rfl

theorem loosen (h : Shielded level waiting) : Shielded (level + 1) waiting :=
  fun operator hle => h operator (Nat.le_of_succ_le hle)

theorem cons (connective : Connective level) (waiting : List Operation) :
    Shielded (level + 1) (.binary connective.operator :: waiting) := by
  intro next hlt
  have hkept : precedes next (.binary connective.operator) = false := by
    rw [precedes, decide_eq_false_iff_not, Operation.strength, connective.strength_operator]
    omega
  rw [List.takeWhile_cons, hkept]
  rfl

/-- An operator of a level releases what a text of that level left waiting. -/
theorem takeWhile_pending_append (h : Shielded level waiting) (connective : Connective level)
    (d : Infix level) :
    (d.pending ++ waiting).takeWhile (precedes connective.operator) = d.pending := by
  have hstrength := connective.strength_operator
  have hreleased : ∀ operation ∈ d.pending, precedes connective.operator operation = true := by
    intro operation hmem
    rw [precedes, hstrength]
    exact decide_eq_true (Infix.le_strength_of_mem_pending hmem)
  rw [List.takeWhile_append_of_pos hreleased, h connective.operator (Nat.le_of_eq hstrength.symm),
    List.append_nil]

theorem dropWhile_pending_append (h : Shielded level waiting) (connective : Connective level)
    (d : Infix level) :
    (d.pending ++ waiting).dropWhile (precedes connective.operator) = waiting := by
  have hall : (d.pending ++ waiting).takeWhile (precedes connective.operator) ++
      (d.pending ++ waiting).dropWhile (precedes connective.operator) = d.pending ++ waiting :=
    List.takeWhile_append_dropWhile
  rw [h.takeWhile_pending_append connective d] at hall
  exact List.append_cancel_left hall

end Shielded

namespace Infix

/-- Converting a derived text emits its items and leaves its operations waiting
on top of those that waited before. -/
theorem convert_lexemes_append {level : Nat} (d : Infix level) {waiting : List Operation}
    (hshielded : Shielded level waiting) (outer : List (List Operation))
    (rest : List Lexeme) :
    convert waiting outer true (d.lexemes ++ rest) =
      (convert (d.pending ++ waiting) outer false rest).map (d.emitted ++ ·) := by
  -- what waits outside and what follows vary: both change within parentheses and operands
  induction d generalizing waiting outer rest with
  | operand signs atom =>
      rw [lexemes, List.append_assoc, Sign.convert_signs_append]
      rfl
  | group signs body ih =>
      -- the body starts a level on which nothing waits
      rw [lexemes, List.append_assoc, Sign.convert_signs_append, List.cons_append, convert,
        List.append_assoc, ih (.nil 1), List.append_nil, List.singleton_append, convert, map_map]
      simp only [emitted, pending, List.append_assoc]
  | loosen inner ih => exact ih hshielded.loosen outer rest
  | join connective left right ihleft ihright =>
      -- the operator releases all that the left part left waiting, and nothing below it
      rw [lexemes, List.append_assoc, ihleft hshielded, List.cons_append, convert,
        if_neg Bool.false_ne_true, hshielded.takeWhile_pending_append connective left,
        hshielded.dropWhile_pending_append connective left, ihright (.cons connective waiting),
        map_map, map_map]
      simp only [emitted, pending, List.append_assoc, List.singleton_append]

theorem ofInfix_text (d : Infix 1) : ofInfix d.text = .ok d.tree.postorder := by
  have hlexemes : Lexeme.ofText d.text = d.lexemes ++ [] := by
    rw [← d.text.append_nil]
    exact d.ofText_text_append rfl
  rw [ofInfix, hlexemes, d.convert_lexemes_append (.nil 1), List.append_nil, convert,
    ← d.emitted_append_pending]
  rfl

theorem map_text_negations (signs : List Sign) :
    ((Sign.negations signs).map Item.operation).map Item.text =
      List.replicate (signs.count .minus) ['~'] := by
  induction signs with
  | nil => rfl
  | cons sign rest ih =>
      cases sign with
      | plus => rw [Sign.negations, ih, List.count_cons_of_ne (by decide)]
      | minus =>
          rw [Sign.negations, List.map_append, List.map_append, ih, List.count_cons_self,
            List.replicate_succ']
          rfl

/-- The tree of a derivation is listed in the words of the derivation. -/
theorem map_text_postorder {level : Nat} (d : Infix level) :
    d.tree.postorder.map Item.text = d.words := by
  induction d with
  | operand signs atom =>
      rw [tree, Sign.postorder_foldr_attachTo, List.map_append, map_text_negations]
      rfl
  | group signs body ih =>
      rw [tree, Sign.postorder_foldr_attachTo, List.map_append, map_text_negations, ih, words]
  | loosen inner ih => exact ih
  | join connective left right ihleft ihright =>
      have hsymbol : Item.text (.operation (.binary connective.operator)) = [connective.symbol] :=
        congrArg ([·]) connective.symbol_operator
      rw [tree, Expr.postorder, List.map_append, List.map_append, ihleft, ihright,
        List.map_singleton, hsymbol, words]

theorem write_postorder_tree (d : Infix 1) :
    write d.tree.postorder = [' '].intercalate d.words := by
  rw [write, Text.join, map_text_postorder]

/-- A text derived as a sum of products of factors has a postfix form. It is the
listing of the derivation, with one space between neighbouring words. Evaluated as
it is written it gives what the text denotes: a number, or the first fault on the
way to it, which is an unbound name or a zero divisor. -/
theorem evaluate_write_ofInfix_text (d : Infix 1) :
    (ofInfix d.text).map write = .ok ([' '].intercalate d.words) ∧
      ∀ table : Variables,
        evaluate table (read ([' '].intercalate d.words)) = d.value table ∧
          ∀ fault, d.value table = .error fault →
            fault = .divisionByZero ∨ ∃ name, fault = .unbound name ∧ table.get? name = none := by
  rw [← write_postorder_tree]
  refine ⟨by rw [ofInfix_text]; rfl, fun table => ⟨?_, fun fault => value_eq_error⟩⟩
  rw [read_write_of_ofInfix d.ofInfix_text, Expr.evaluate_postorder, eval_tree]

end Infix

end Calculator
