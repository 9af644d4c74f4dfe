import Calculator.Proofs.Obstacles
import Calculator.Proofs.Words

/-! # What a conversion keeps of a text

The operands of a stream are the runs of the text. Each of its operations is that of one
operator character, and what becomes of such a character is told by the character before
it: an operator in binary position stands for itself, a minus in prefix position for a
negation. A plus in prefix position is dropped, and so is a `*` or `/` there.
-/

namespace Calculator

namespace Operator

/-- The operation that an operator stands for, if it is carried out at all. -/
def reading? (prefixed : Bool) (operator : Operator) : Option Operation :=
  if prefixed then if operator = .minus then some .negate else none
  else some (.binary operator)

theorem reading?_eq_binary_iff {prefixed : Bool} {operator other : Operator} :
    operator.reading? prefixed = some (.binary other) ↔ operator = other ∧ prefixed = false := by
  cases prefixed <;> cases operator <;> simp [reading?]

theorem reading?_eq_none_iff {prefixed : Bool} {operator : Operator} :
    operator.reading? prefixed = none ↔ prefixed = true ∧ operator ≠ .minus := by
  cases prefixed <;> cases operator <;> simp [reading?]

end Operator

namespace Text

/-- The characters of a text, each with the one before it, given the one before the text. -/
def neighbours (previous : Option Char) (text : Text) : List (Option Char × Char) :=
  (previous :: text.map some).zip text

theorem neighbours_cons (previous : Option Char) (c : Char) (rest : Text) :
    neighbours previous (c :: rest) = (previous, c) :: neighbours (some c) rest :=
  rfl

theorem map_snd_neighbours (previous : Option Char) (text : Text) :
    (text.neighbours previous).map Prod.snd = text :=
  List.map_snd_zip (by simp)

end Text

namespace Postfix

def Item.operation? : Item → Option Operation
  | .operand _ => none
  | .operation applied => some applied

theorem filterMap_operation?_map_operation (operations : List Operation) :
    (operations.map Item.operation).filterMap Item.operation? = operations := by
  induction operations with
  | nil => rfl
  | cons operation rest ih =>
      rw [List.map_cons]
      exact congrArg (operation :: ·) ih

/-- The operations that lexemes stand for, given whether the first is in prefix position. -/
def operations (prefixed : Bool) : List Lexeme → List Operation
  | [] => []
  | .operand _ :: rest => operations false rest
  | .opening :: rest => operations true rest
  | .closing :: rest => operations false rest
  | .operator operator :: rest => (operator.reading? prefixed).toList ++ operations true rest
  | .foreign _ :: rest => operations false rest

theorem waitPrefixed_eq (operator : Operator) (waiting : List Operation) :
    waitPrefixed operator waiting = (operator.reading? true).toList ++ waiting := by
  cases operator <;> rfl

theorem count_takeWhile_add_dropWhile (p : Operation → Bool) (waiting : List Operation)
    (operation : Operation) :
    (waiting.takeWhile p).count operation + (waiting.dropWhile p).count operation =
      waiting.count operation := by
  rw [← List.count_append, List.takeWhile_append_dropWhile]

/-- A conversion emits what waits when it begins and what its lexemes stand for, each
operation as often as it is there. -/
theorem count_filterMap_operation?_convert {waiting : List Operation}
    {outer : List (List Operation)} {prefixed : Bool} {lexemes : List Lexeme}
    {items : List Item} (hconvert : convert waiting outer prefixed lexemes = .ok items)
    (operation : Operation) :
    (items.filterMap Item.operation?).count operation =
      waiting.count operation + outer.flatten.count operation +
        (operations prefixed lexemes).count operation := by
  induction lexemes generalizing waiting outer prefixed items with
  | nil =>
      cases outer with
      | nil =>
          cases hconvert
          rw [filterMap_operation?_map_operation]
          rfl
      | cons => cases hconvert
  | cons lexeme rest ih =>
      cases lexeme with
      | operand text =>
          obtain ⟨found, hfound, rfl⟩ := map_eq_ok_iff.mp hconvert
          rw [List.filterMap_cons_none rfl, ih hfound, operations]
      | opening =>
          rw [ih hconvert, operations, List.flatten_cons, List.count_append, List.count_nil,
            Nat.zero_add]
      | closing =>
          cases outer with
          | nil => cases hconvert
          | cons enclosing outer =>
              obtain ⟨found, hfound, rfl⟩ := map_eq_ok_iff.mp hconvert
              rw [List.filterMap_append, filterMap_operation?_map_operation, List.count_append,
                ih hfound, operations, List.flatten_cons, List.count_append]
              omega
      | operator operator =>
          rw [convert] at hconvert
          rw [operations, List.count_append]
          split at hconvert
          next hprefixed =>
            rw [ih hconvert, waitPrefixed_eq, List.count_append, hprefixed]
            omega
          next hbinary =>
            obtain ⟨found, hfound, rfl⟩ := map_eq_ok_iff.mp hconvert
            have hwaiting := count_takeWhile_add_dropWhile (precedes operator) waiting operation
            rw [List.filterMap_append, filterMap_operation?_map_operation, List.count_append,
              ih hfound, Operator.reading?, if_neg hbinary, Option.toList_some, List.count_cons,
              List.count_singleton]
            omega
      | foreign c => cases hconvert

/-- Whether a sign is in prefix position behind a character, or at the start. -/
def opensPrefix (previous : Option Char) : Bool :=
  previous.all fun c => c = '(' || (Operator.ofSymbol? c).isSome

/-- The operation that a character stands for behind another one, or at the start. -/
def operationAt? (pair : Option Char × Char) : Option Operation :=
  (Operator.ofSymbol? pair.2).bind (Operator.reading? (opensPrefix pair.1))

theorem opensPrefix_symbol (operator : Operator) :
    opensPrefix (some operator.symbol) = true := by
  cases operator <;> rfl

theorem operationAt?_symbol (previous : Option Char) (operator : Operator) :
    operationAt? (previous, operator.symbol) = operator.reading? (opensPrefix previous) := by
  rw [operationAt?, Operator.ofSymbol?_symbol]
  rfl

/-- A character that is no symbol of an operator stands for no operation, and unless it
is an opening parenthesis, nothing behind it is in prefix position. -/
theorem opensPrefix_and_operationAt?_of_ofSymbol? {c : Char}
    (hc : Operator.ofSymbol? c = none) (hopening : c ≠ '(') (previous : Option Char) :
    opensPrefix (some c) = false ∧ operationAt? (previous, c) = none := by
  simp [opensPrefix, operationAt?, hc, hopening]

theorem operations_attachToOperand (prefixed : Bool) (c : Char) (lexemes : List Lexeme) :
    operations prefixed (Lexeme.attachToOperand c lexemes) = operations false lexemes := by
  rw [Lexeme.attachToOperand.eq_def]
  split <;> rfl

/-- What the lexemes of a text stand for is told by the text, each character read behind
the one before it. -/
theorem operations_ofText (previous : Option Char) (text : Text) :
    operations (opensPrefix previous) (Lexeme.ofText text) =
      (text.neighbours previous).filterMap operationAt? := by
  induction text generalizing previous with
  | nil => rfl
  | cons c rest ih =>
      have hattached := attached_attach c (Lexeme.ofText rest)
      rw [Lexeme.ofText_cons, Text.neighbours_cons, List.filterMap_cons, ← ih (some c)]
      generalize Lexeme.attach c (Lexeme.ofText rest) = lexemes at hattached ⊢
      cases hattached with
      | operand hc =>
          have hopening : c ≠ '(' := by rintro rfl; cases hc
          obtain ⟨hnext, hnone⟩ := opensPrefix_and_operationAt?_of_ofSymbol?
            (Operator.ofSymbol?_eq_none_of_isAlphanum hc) hopening previous
          rw [operations_attachToOperand, hnext, hnone]
      | opening => rfl
      | closing => rfl
      | operator operator =>
          rw [operations, opensPrefix_symbol, operationAt?_symbol]
          cases operator.reading? (opensPrefix previous) <;> rfl
      | foreign hc hopening =>
          obtain ⟨hnext, hnone⟩ := opensPrefix_and_operationAt?_of_ofSymbol?
            (ofSymbol?_eq_none_of_isSupported hc) hopening previous
          rw [operations, hnext, hnone]

theorem operationAt?_eq_binary_iff {pair : Option Char × Char} {operator : Operator} :
    operationAt? pair = some (.binary operator) ↔
      pair.2 = operator.symbol ∧ opensPrefix pair.1 = false := by
  rw [operationAt?, Option.bind_eq_some_iff]
  constructor
  · rintro ⟨found, hfound, hreading⟩
    obtain ⟨rfl, hbinary⟩ := Operator.reading?_eq_binary_iff.mp hreading
    exact ⟨Operator.eq_symbol_of_ofSymbol? hfound, hbinary⟩
  · rintro ⟨hsymbol, hbinary⟩
    rw [hsymbol]
    exact ⟨operator, Operator.ofSymbol?_symbol operator,
      Operator.reading?_eq_binary_iff.mpr ⟨rfl, hbinary⟩⟩

/-- An operator is carried out as often as its symbol stands in a text if and only if the
symbol is nowhere in prefix position. -/
theorem count_binary_eq_count_symbol_iff {text : Text} {operator : Operator} :
    ((text.neighbours none).filterMap operationAt?).count (.binary operator) =
        text.count operator.symbol ↔
      ∀ pair ∈ text.neighbours none, pair.2 = operator.symbol → opensPrefix pair.1 = false := by
  have hsymbols : text.count operator.symbol =
      ((text.neighbours none).filter fun pair => pair.2 == operator.symbol).length := by
    rw [← List.countP_eq_length_filter]
    conv_lhs => rw [← Text.map_snd_neighbours none text, List.count, List.countP_map]
    rfl
  have hbinary : ((text.neighbours none).filterMap operationAt?).count (.binary operator) =
      ((text.neighbours none).filter fun pair => pair.2 == operator.symbol).countP
        fun pair => !opensPrefix pair.1 := by
    rw [List.count_filterMap, List.countP_filter]
    refine List.countP_congr fun pair _ => ?_
    simp [operationAt?_eq_binary_iff, and_comm]
  rw [hsymbols, hbinary, List.countP_eq_length]
  simp

/-- What is neither a part of an operand nor carried out is a parenthesis, or an operator
in prefix position. -/
theorem omitted_of_isSupported {pair : Option Char × Char} (hsupported : isSupported pair.2 = true)
    (hsymbol : pair.2.isAlphanum = false) (hnone : operationAt? pair = none) :
    pair.2 ∈ ['(', ')'] ∨ (opensPrefix pair.1 = true ∧ pair.2 ∈ ['+', '*', '/']) := by
  obtain ⟨previous, c⟩ := pair
  cases hoperator : Operator.ofSymbol? c with
  | none =>
      by_contra hneither
      obtain ⟨hparenthesis, _⟩ := not_or.mp hneither
      have hopening : c ≠ '(' := by rintro rfl; simp at hparenthesis
      have hclosing : c ≠ ')' := by rintro rfl; simp at hparenthesis
      have hforeign := isSupported_eq_false_of_ofSymbol? hsymbol hopening hclosing hoperator
      rw [hsupported] at hforeign
      cases hforeign
  | some operator =>
      obtain rfl := Operator.eq_symbol_of_ofSymbol? hoperator
      rw [operationAt?_symbol, Operator.reading?_eq_none_iff] at hnone
      refine Or.inr ⟨hnone.1, ?_⟩
      cases operator with
      | minus => exact absurd rfl hnone.2
      | plus | times | divide => simp [Operator.symbol]

/-- What a stream has of a text: its runs as operands, in their order, and as operations,
in some order, those of its operator characters, nothing else being left out than
parentheses and operators other than minus in prefix position. What stands between the
spaces of the written stream are its items. -/
structure Accounts (text : Text) (items : List Item) : Prop where
  operands : items.filterMap Item.operand? = text.runs
  operations : (items.filterMap Item.operation?).Perm
    ((text.neighbours none).filterMap operationAt?)
  omitted : ∀ pair ∈ text.neighbours none, pair.2.isAlphanum = false → operationAt? pair = none →
    pair.2 ∈ ['(', ')'] ∨ (opensPrefix pair.1 = true ∧ pair.2 ∈ ['+', '*', '/'])
  words : pieces (write items) = items.map Item.text

theorem accounts_ofInfix {text : Text} {items : List Item}
    (hconverted : ofInfix text = .ok items) : Accounts text items where
  operands := by rw [filterMap_operand?_convert hconverted, filterMap_operand?_ofText]
  operations := by
    refine List.perm_iff_count.mpr fun operation => ?_
    rw [count_filterMap_operation?_convert hconverted, ← operations_ofText]
    exact Nat.zero_add _
  omitted := by
    intro pair hpair
    obtain ⟨hsupported, _⟩ := exists_ofInfix_iff.mp ⟨items, hconverted⟩
    have hmem : pair.2 ∈ text := by
      rw [← Text.map_snd_neighbours none text]
      exact List.mem_map_of_mem hpair
    exact omitted_of_isSupported (hsupported pair.2 hmem)
  words := pieces_write (isWord_of_ofInfix hconverted)

/-- A conversion keeps every `*` and `/` of a text if and only if each of them stands in
binary position. -/
theorem ofInfix_keeps_factors_iff {text : Text} {items : List Item}
    (hconverted : ofInfix text = .ok items) :
    Accounts text items ∧
      (((items.filterMap Item.operation?).count (.binary .times) = text.count '*' ∧
          (items.filterMap Item.operation?).count (.binary .divide) = text.count '/') ↔
        ∀ pair ∈ text.neighbours none, pair.2 ∈ ['*', '/'] → opensPrefix pair.1 = false) := by
  have haccounts := accounts_ofInfix hconverted
  have hcount (operator : Operator) :
      (items.filterMap Item.operation?).count (.binary operator) = text.count operator.symbol ↔
        ∀ pair ∈ text.neighbours none, pair.2 = operator.symbol → opensPrefix pair.1 = false := by
    rw [haccounts.operations.count_eq, count_binary_eq_count_symbol_iff]
  refine ⟨haccounts, (and_congr (hcount .times) (hcount .divide)).trans ?_⟩
  constructor
  · rintro ⟨htimes, hdivide⟩ pair hpair hfactor
    rcases List.mem_pair.mp hfactor with hsymbol | hsymbol
    · exact htimes pair hpair hsymbol
    · exact hdivide pair hpair hsymbol
  · intro hbinary
    exact ⟨fun pair hpair hsymbol => hbinary pair hpair (List.mem_pair.mpr (Or.inl hsymbol)),
      fun pair hpair hsymbol => hbinary pair hpair (List.mem_pair.mpr (Or.inr hsymbol))⟩

theorem ofInfix_keeps_factor_before_sign :
    ofInfix "-2*-(+a3)".toList = .ok [.operand ['2'], .operation .negate, .operand ['a', '3'],
      .operation .negate, .operation (.binary .times)] ∧
    Accounts "-2*-(+a3)".toList [.operand ['2'], .operation .negate, .operand ['a', '3'],
      .operation .negate, .operation (.binary .times)] ∧
    ([.operand ['2'], .operation .negate, .operand ['a', '3'], .operation .negate,
      .operation (.binary .times)].filterMap Item.operation?).count (.binary .times) =
        "-2*-(+a3)".toList.count '*' := by
  have hconverted : ofInfix "-2*-(+a3)".toList = .ok [.operand ['2'], .operation .negate,
      .operand ['a', '3'], .operation .negate, .operation (.binary .times)] := by
    decide +kernel
  obtain ⟨haccounts, hfactors⟩ := ofInfix_keeps_factors_iff hconverted
  exact ⟨hconverted, haccounts, (hfactors.mpr (by decide +kernel)).1⟩

/-- A `*` in prefix position is lost: it is taken for a sign. -/
theorem factor_lost_at_start :
    ofInfix "*5".toList = .ok [.operand ['5']] ∧
      ([.operand ['5']].filterMap Item.operation?).count (.binary .times) ≠
        "*5".toList.count '*' := by
  decide +kernel

end Postfix

end Calculator
