import Calculator.Postfix.Conversion
import Calculator.Proofs.Lexemes
import Calculator.Proofs.Results

/-! # Streams that a conversion writes

The operands of a text reach the stream in their order. They are runs of
letters and digits, so the items can be told apart in the written stream.
-/

namespace Calculator.Postfix

def Item.operand? : Item → Option Text
  | .operand text => some text
  | .operation _ => none

theorem filterMap_operand?_map_operation (operations : List Operation) :
    (operations.map Item.operation).filterMap Item.operand? = [] := by
  induction operations with
  | nil => rfl
  | cons operation rest ih => rwa [List.map_cons, List.filterMap_cons_none rfl]

/-- A conversion neither loses nor adds nor reorders operands. -/
theorem filterMap_operand?_convert {waiting : List Operation} {outer : List (List Operation)}
    {prefixed : Bool} {lexemes : List Lexeme} {items : List Item}
    (hconvert : convert waiting outer prefixed lexemes = .ok items) :
    items.filterMap Item.operand? = lexemes.filterMap Lexeme.operand? := by
  induction lexemes generalizing waiting outer prefixed items with
  | nil =>
      cases outer with
      | nil =>
          cases hconvert
          exact filterMap_operand?_map_operation waiting
      | cons => cases hconvert
  | cons lexeme rest ih =>
      cases lexeme with
      | operand text =>
          obtain ⟨found, hfound, rfl⟩ := map_eq_ok_iff.mp hconvert
          exact congrArg (text :: ·) (ih hfound)
      | opening => exact ih hconvert
      | closing =>
          cases outer with
          | nil => cases hconvert
          | cons enclosing outer =>
              obtain ⟨found, hfound, rfl⟩ := map_eq_ok_iff.mp hconvert
              rw [List.filterMap_append, filterMap_operand?_map_operation, ih hfound]
              rfl
      | operator operator =>
          rw [convert] at hconvert
          split at hconvert
          next => exact ih hconvert
          next =>
            obtain ⟨found, hfound, rfl⟩ := map_eq_ok_iff.mp hconvert
            rw [List.filterMap_append, filterMap_operand?_map_operation, ih hfound]
            rfl
      | foreign c => cases hconvert

/-- Whether an item is told by its written form: if it is an operand, it is a
run of letters and digits. -/
def Item.IsWord (item : Item) : Prop :=
  ∀ text, item.operand? = some text → Lexeme.IsRun text

theorem isWord_of_ofInfix {text : Text} {items : List Item}
    (hconverted : ofInfix text = .ok items) : ∀ item ∈ items, item.IsWord := by
  intro item hitem operand hoperand
  apply Lexeme.isRun_of_mem_ofText text
  rw [← filterMap_operand?_convert hconverted]
  exact List.mem_filterMap.mpr ⟨item, hitem, hoperand⟩

theorem not_mem_run_of_not_isAlphanum {run : Text} {c : Char} (hrun : Lexeme.IsRun run)
    (hc : c.isAlphanum = false) : c ∉ run := by
  intro hmem
  rw [hrun.2 c hmem] at hc
  cases hc

/-- Whether a word stands for an operation. -/
def IsSymbol (word : Text) : Prop :=
  ∃ operation : Operation, word = [operation.symbol]

theorem ofText_symbol (operation : Operation) :
    Item.ofText [operation.symbol] = .operation operation := by
  cases operation with
  | negate => rfl
  | binary operator => cases operator <;> rfl

theorem ofText_of_not_isSymbol {word : Text} (hword : ¬ IsSymbol word) :
    Item.ofText word = .operand word := by
  rw [Item.ofText, if_neg fun heq => hword ⟨.negate, heq⟩]
  cases hsymbol : Operator.ofText? word with
  | none => rfl
  | some operator =>
      rw [Operator.ofText?.eq_def] at hsymbol
      split at hsymbol
      next c =>
        exact absurd ⟨.binary operator, by rw [Operator.eq_symbol_of_ofSymbol? hsymbol]; rfl⟩ hword
      next => cases hsymbol

theorem not_isSymbol_of_isRun {run : Text} (hrun : Lexeme.IsRun run) : ¬ IsSymbol run := by
  rintro ⟨operation, rfl⟩
  exact not_mem_run_of_not_isAlphanum hrun operation.isAlphanum_symbol List.mem_cons_self

theorem ofText_text {item : Item} (hitem : item.IsWord) : Item.ofText item.text = item := by
  cases item with
  | operand text => exact ofText_of_not_isSymbol (not_isSymbol_of_isRun (hitem text rfl))
  | operation operation => exact ofText_symbol operation

theorem text_ne_nil {item : Item} (hitem : item.IsWord) : item.text ≠ [] := by
  cases item with
  | operand text => exact (hitem text rfl).1
  | operation operation => exact List.cons_ne_nil _ _

theorem space_not_mem_text {item : Item} (hitem : item.IsWord) : ' ' ∉ item.text := by
  cases item with
  | operand text => exact not_mem_run_of_not_isAlphanum (hitem text rfl) (by decide)
  | operation operation =>
      cases operation with
      | negate => decide
      | binary operator => cases operator <;> decide

/-- A break takes a text apart into what is before it and what is behind it. -/
theorem filter_splitOnP_append_cons {isBreak : Char → Bool} {c : Char} (hc : isBreak c = true)
    (before after : Text) :
    ((before ++ c :: after).splitOnP isBreak).filter (fun piece => !piece.isEmpty) =
      (before.splitOnP isBreak).filter (fun piece => !piece.isEmpty) ++
        (after.splitOnP isBreak).filter fun piece => !piece.isEmpty := by
  rw [List.splitOnP_append_cons _ _ hc, List.filter_append]

/-- The words of a stream: what stands between its spaces. -/
def pieces (stream : Text) : List Text :=
  (stream.splitOn ' ').filter fun piece => !piece.isEmpty

theorem read_eq_map_pieces (stream : Text) : read stream = (pieces stream).map Item.ofText :=
  rfl

theorem splitOn_write {items : List Item} (hwords : ∀ item ∈ items, item.IsWord)
    (hne : items ≠ []) : (write items).splitOn ' ' = items.map Item.text := by
  have hspaces : ∀ word ∈ items.map Item.text, ' ' ∉ word := by
    intro word hword
    obtain ⟨item, hitem, rfl⟩ := List.mem_map.mp hword
    exact space_not_mem_text (hwords item hitem)
  rw [write, Text.join, List.splitOn_intercalate ' ' hspaces (by simpa using hne)]

/-- The words of a written stream are the texts of its items. -/
theorem pieces_write {items : List Item} (hwords : ∀ item ∈ items, item.IsWord) :
    pieces (write items) = items.map Item.text := by
  by_cases hne : items = []
  · subst hne
    rfl
  · have hkept : ∀ word ∈ items.map Item.text, (!word.isEmpty) = true := by
      intro word hword
      obtain ⟨item, hitem, rfl⟩ := List.mem_map.mp hword
      simpa using text_ne_nil (hwords item hitem)
    rw [pieces, splitOn_write hwords hne, List.filter_eq_self.mpr hkept]

/-- Reading a written stream gives its items back. -/
theorem read_write {items : List Item} (hwords : ∀ item ∈ items, item.IsWord) :
    read (write items) = items := by
  rw [read_eq_map_pieces, pieces_write hwords, List.map_map]
  exact (List.map_congr_left fun item hitem => ofText_text (hwords item hitem)).trans
    (List.map_id items)

theorem read_write_of_ofInfix {text : Text} {items : List Item}
    (hconverted : ofInfix text = .ok items) : read (write items) = items :=
  read_write (isWord_of_ofInfix hconverted)

end Calculator.Postfix
