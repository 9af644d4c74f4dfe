import Calculator.Proofs.Streams

/-! # Conversion on one stack

The levels of a conversion can lie on one stack of symbols, with an opening
parenthesis between each two. A machine with such a stack reads one character after
the other, looks the strengths of the symbols up in a table, and pops no further than
to the innermost parenthesis. It emits the words of the converted text, and no
look-up fails.
-/

namespace Calculator.Postfix

/-- Why a machine stops before the end of a text. -/
inductive Halt where
  | obstacle (obstacle : Obstacle)
  /-- A symbol was looked up that has no strength. -/
  | unranked (symbol : Char)
  deriving DecidableEq, Repr

/-- The symbols of operations with their strengths. -/
def strengths : List (Char × Nat) :=
  [('+', 1), ('-', 1), ('*', 2), ('/', 2), ('~', 3)]

def strengthOf (symbol : Char) : Except Halt Nat :=
  match strengths.lookup symbol with
  | some strength => .ok strength
  | none => .error (.unranked symbol)

/-- Take from a stack the symbols above the innermost parenthesis that bind at least
as strongly as an operator. -/
def release (symbol : Char) : Text → Except Halt (Text × Text)
  | [] => .ok ([], [])
  | top :: below =>
      if top = '(' then .ok ([], top :: below)
      else
        (strengthOf top).bind fun waiting =>
          (strengthOf symbol).bind fun coming =>
            if coming ≤ waiting then
              (release symbol below).map fun (popped, kept) => (top :: popped, kept)
            else .ok ([], top :: below)

/-- What a machine holds between two characters: the words that it emitted, the stack,
latest first, the operand that it is reading, and whether a sign would be in prefix
position. -/
structure Machine where
  emitted : List Text
  stack : Text
  operand : Text
  prefixed : Bool

namespace Machine

def initial : Machine :=
  ⟨[], [], [], true⟩

/-- Emit the operand that ends here, if there is one. -/
def endOperand (machine : Machine) : Machine :=
  if machine.operand = [] then machine
  else { machine with emitted := machine.emitted ++ [machine.operand], operand := [] }

/-- Pop down to the innermost parenthesis, and the parenthesis too. -/
def close (machine : Machine) : Except Halt Machine :=
  match machine.stack.dropWhile (· ≠ '(') with
  | [] => .error (.obstacle .unmatchedClosing)
  | _ :: below =>
      .ok
        { machine with
          emitted := machine.emitted ++ (machine.stack.takeWhile (· ≠ '(')).map ([·])
          stack := below
          prefixed := false }

def operate (machine : Machine) (symbol : Char) : Except Halt Machine :=
  if machine.prefixed then
    .ok (if symbol = '-' then { machine with stack := '~' :: machine.stack } else machine)
  else
    (release symbol machine.stack).map fun (popped, kept) =>
      { machine with
        emitted := machine.emitted ++ popped.map ([·])
        stack := symbol :: kept
        prefixed := true }

def step (machine : Machine) (c : Char) : Except Halt Machine :=
  if c.isAlphanum then
    .ok { machine with operand := machine.operand ++ [c], prefixed := false }
  else
    let machine := machine.endOperand
    if c = '(' then .ok { machine with stack := c :: machine.stack, prefixed := true }
    else if c = ')' then machine.close
    else if c ∈ ['+', '-', '*', '/'] then machine.operate c
    else .error (.obstacle (.foreign c))

/-- Pop all that is left. -/
def drain (emitted : List Text) : Text → Except Halt (List Text)
  | [] => .ok emitted
  | top :: below =>
      if top = '(' then .error (.obstacle .unmatchedOpening)
      else drain (emitted ++ [[top]]) below

/-- The words that a machine has emitted when the text is read. -/
def run (machine : Machine) : Text → Except Halt (List Text)
  | [] => drain machine.endOperand.emitted machine.endOperand.stack
  | c :: rest => (machine.step c).bind (run · rest)

end Machine

/-- The levels of waiting operations on one stack. -/
def stackOf (waiting : List Operation) : List (List Operation) → Text
  | [] => waiting.map Operation.symbol
  | enclosing :: outer => waiting.map Operation.symbol ++ '(' :: stackOf enclosing outer

/-- The words emitted before and the words of a conversion, if it succeeds. -/
def wordsAfter (emitted : List Text) : Except Obstacle (List Item) → Except Halt (List Text)
  | .ok items => .ok (emitted ++ items.map Item.text)
  | .error obstacle => .error (.obstacle obstacle)

theorem wordsAfter_map_append (emitted : List Text) (items : List Item)
    (result : Except Obstacle (List Item)) :
    wordsAfter emitted (result.map (items ++ ·)) =
      wordsAfter (emitted ++ items.map Item.text) result := by
  cases result with
  | error obstacle => rfl
  | ok rest => simp [Except.map, wordsAfter]

theorem map_text_operation (operations : List Operation) :
    (operations.map Item.operation).map Item.text = (operations.map Operation.symbol).map ([·]) := by
  simp [Item.text]

theorem symbol_ne_opening (operation : Operation) : operation.symbol ≠ '(' := by
  cases operation with
  | negate => decide
  | binary operator => cases operator <;> decide

theorem strengthOf_symbol (operation : Operation) :
    strengthOf operation.symbol = .ok operation.strength := by
  cases operation with
  | negate => rfl
  | binary operator => cases operator <;> rfl

section Stack

variable (waiting : List Operation) (outer : List (List Operation))

theorem stackOf_cons (operation : Operation) :
    stackOf (operation :: waiting) outer = operation.symbol :: stackOf waiting outer := by
  cases outer <;> rfl

/-- An operator takes from the stack what it releases on the innermost level. -/
theorem release_stackOf (operator : Operator) :
    release operator.symbol (stackOf waiting outer) =
      .ok ((waiting.takeWhile (precedes operator)).map Operation.symbol,
        stackOf (waiting.dropWhile (precedes operator)) outer) := by
  induction waiting with
  | nil => cases outer <;> rfl
  | cons operation rest ih =>
      have hcoming : strengthOf operator.symbol = .ok operator.strength :=
        strengthOf_symbol (.binary operator)
      rw [stackOf_cons, release, if_neg (symbol_ne_opening operation), strengthOf_symbol, hcoming,
        ih, List.takeWhile_cons, List.dropWhile_cons]
      by_cases hle : operator.strength ≤ operation.strength
      · have hprecedes : precedes operator operation = true := decide_eq_true hle
        simp [Except.bind, Except.map, hle, hprecedes]
      · have hkept : precedes operator operation = false := decide_eq_false hle
        simp [Except.bind, hle, hkept, stackOf_cons]

theorem takeWhile_stackOf :
    (stackOf waiting outer).takeWhile (· ≠ '(') = waiting.map Operation.symbol := by
  induction waiting with
  | nil => cases outer <;> rfl
  | cons operation rest ih =>
      have hsymbol := decide_eq_true (symbol_ne_opening operation)
      rw [stackOf_cons, List.takeWhile_cons, if_pos hsymbol, ih, List.map_cons]

theorem dropWhile_stackOf :
    (stackOf waiting outer).dropWhile (· ≠ '(') = stackOf [] outer := by
  induction waiting with
  | nil => cases outer <;> rfl
  | cons operation rest ih =>
      have hsymbol := decide_eq_true (symbol_ne_opening operation)
      rw [stackOf_cons, List.dropWhile_cons, if_pos hsymbol, ih]

theorem drain_stackOf (emitted : List Text) (prefixed : Bool) :
    Machine.drain emitted (stackOf waiting outer) =
      wordsAfter emitted (convert waiting outer prefixed []) := by
  induction waiting generalizing emitted with
  | nil =>
      cases outer with
      | nil => simp [stackOf, Machine.drain, convert, wordsAfter]
      | cons => rfl
  | cons operation rest ih =>
      rw [stackOf_cons, Machine.drain, if_neg (symbol_ne_opening operation), ih]
      cases outer with
      | nil => simp [convert, wordsAfter, Item.text]
      | cons => rfl

end Stack

theorem exists_ofText_cons_eq {c : Char} (hc : c.isAlphanum = true) (rest : Text) :
    ∃ run lexemes, Lexeme.ofText (c :: rest) = .operand run :: lexemes := by
  rw [Lexeme.ofText_cons, Lexeme.attach, if_pos hc, Lexeme.attachToOperand.eq_def]
  split <;> exact ⟨_, _, rfl⟩

/-- In front of an operand it does not matter whether a sign would be in prefix position. -/
theorem convert_ofText_of_isAlphanum (waiting : List Operation) (outer : List (List Operation))
    (prefixed : Bool) {c : Char} (hc : c.isAlphanum = true) (rest : Text) :
    convert waiting outer prefixed (Lexeme.ofText (c :: rest)) =
      convert waiting outer false (Lexeme.ofText (c :: rest)) := by
  obtain ⟨run, lexemes, hlexemes⟩ := exists_ofText_cons_eq hc rest
  rw [hlexemes]
  rfl

theorem mem_symbols_iff {c : Char} :
    c ∈ ['+', '-', '*', '/'] ↔ ∃ operator : Operator, c = operator.symbol := by
  constructor
  · intro hc
    simp only [List.mem_cons, List.not_mem_nil, or_false] at hc
    rcases hc with rfl | rfl | rfl | rfl
    · exact ⟨.plus, rfl⟩
    · exact ⟨.minus, rfl⟩
    · exact ⟨.times, rfl⟩
    · exact ⟨.divide, rfl⟩
  · rintro ⟨operator, rfl⟩
    cases operator <;> decide

namespace Machine

variable {emitted : List Text} {waiting : List Operation} {outer : List (List Operation)}

theorem endOperand_endOperand (machine : Machine) :
    machine.endOperand.endOperand = machine.endOperand := by
  by_cases hnone : machine.operand = []
  · simp only [endOperand, if_pos hnone]
  · simp only [endOperand, if_neg hnone, if_true]

/-- A symbol ends the operand before it. -/
theorem run_endOperand (machine : Machine) {c : Char} (hc : c.isAlphanum = false) (rest : Text) :
    run machine.endOperand (c :: rest) = run machine (c :: rest) := by
  have hstep : machine.endOperand.step c = machine.step c := by
    simp only [step, hc, endOperand_endOperand, if_neg Bool.false_ne_true]
  rw [run, run, hstep]

/-- A parenthesis that closes empties the innermost level and takes it off the stack. -/
theorem close_stackOf (prefixed : Bool) :
    close ⟨emitted, stackOf waiting outer, [], prefixed⟩ =
      match outer with
      | [] => .error (.obstacle .unmatchedClosing)
      | enclosing :: outer =>
          .ok ⟨emitted ++ (waiting.map Item.operation).map Item.text, stackOf enclosing outer, [],
            false⟩ := by
  simp only [close, takeWhile_stackOf, dropWhile_stackOf, map_text_operation]
  cases outer <;> rfl

theorem operate_stackOf (prefixed : Bool) (operator : Operator) :
    operate ⟨emitted, stackOf waiting outer, [], prefixed⟩ operator.symbol =
      .ok (if prefixed then ⟨emitted, stackOf (waitPrefixed operator waiting) outer, [], true⟩
        else
          ⟨emitted ++ ((waiting.takeWhile (precedes operator)).map Item.operation).map Item.text,
            stackOf (.binary operator :: waiting.dropWhile (precedes operator)) outer, [], true⟩) := by
  cases prefixed with
  | true =>
      cases operator with
      | minus => simp [operate, waitPrefixed, Operator.symbol, stackOf_cons, Operation.symbol]
      | plus | times | divide => simp [operate, waitPrefixed, Operator.symbol]
  | false =>
      simp only [operate, release_stackOf, Except.map, map_text_operation, stackOf_cons]
      rfl

/-- Reading a symbol on one stack is reading its lexeme on levels. -/
theorem run_symbol_cons {c : Char} (hc : c.isAlphanum = false) {rest : Text}
    (hrest : ∀ emitted waiting outer prefixed,
      run ⟨emitted, stackOf waiting outer, [], prefixed⟩ rest =
        wordsAfter emitted (convert waiting outer prefixed (Lexeme.ofText rest)))
    (prefixed : Bool) :
    run ⟨emitted, stackOf waiting outer, [], prefixed⟩ (c :: rest) =
      wordsAfter emitted (convert waiting outer prefixed (Lexeme.ofText (c :: rest))) := by
  rw [Lexeme.ofText_symbol_cons hc, run, step, hc, if_neg Bool.false_ne_true, endOperand,
    if_pos rfl, Lexeme.ofSymbol]
  by_cases hopening : c = '('
  · subst hopening
    exact hrest emitted [] (waiting :: outer) true
  by_cases hclosing : c = ')'
  · subst hclosing
    rw [if_neg hopening, if_pos rfl, if_neg hopening, if_pos rfl, close_stackOf]
    cases outer with
    | nil => rfl
    | cons enclosing outer =>
        rw [convert, wordsAfter_map_append, ← hrest]
        rfl
  rw [if_neg hopening, if_neg hclosing, if_neg hopening, if_neg hclosing]
  cases hsymbol : Operator.ofSymbol? c with
  | none =>
      have hforeign : c ∉ ['+', '-', '*', '/'] := by
        rw [mem_symbols_iff, not_exists]
        exact Operator.ofSymbol?_eq_none_iff.mp hsymbol
      rw [if_neg hforeign]
      rfl
  | some operator =>
      obtain rfl := Operator.eq_symbol_of_ofSymbol? hsymbol
      rw [if_pos (mem_symbols_iff.mpr ⟨operator, rfl⟩), operate_stackOf]
      cases prefixed with
      | true => exact hrest emitted _ outer true
      | false =>
          change _ = wordsAfter emitted ((convert _ outer true _).map _)
          rw [wordsAfter_map_append, ← hrest]
          rfl

/-- A machine with the levels on its stack goes on as the conversion does. -/
theorem run_stackOf (text : Text) {operand : Text} {prefixed : Bool}
    (hoperand : ∀ c ∈ operand, c.isAlphanum = true) (hprefixed : operand ≠ [] → prefixed = false) :
    run ⟨emitted, stackOf waiting outer, operand, prefixed⟩ text =
      wordsAfter emitted (convert waiting outer prefixed (Lexeme.ofText (operand ++ text))) := by
  -- the operand grows at its end, so the text that is left is what the induction is on
  induction text generalizing emitted waiting outer operand prefixed with
  | nil =>
      by_cases hne : operand = []
      · subst hne
        exact drain_stackOf waiting outer emitted prefixed
      · rw [Lexeme.ofText_run_append hne hoperand rfl, run, endOperand, if_neg hne]
        change drain (emitted ++ [operand]) _ = wordsAfter emitted ((convert _ _ false []).map _)
        rw [drain_stackOf waiting outer _ false]
        exact (wordsAfter_map_append emitted [.operand operand] _).symm
  | cons c rest ih =>
      by_cases hc : c.isAlphanum = true
      · have hgrown : ∀ d ∈ operand ++ [c], d.isAlphanum = true := by
          intro d hd
          rcases List.mem_append.mp hd with hd | hd
          · exact hoperand d hd
          · rwa [List.mem_singleton.mp hd]
        rw [run, step, if_pos hc]
        change run ⟨emitted, _, operand ++ [c], false⟩ rest = _
        rw [ih hgrown fun _ => rfl, List.append_assoc, List.singleton_append]
        by_cases hne : operand = []
        · subst hne
          exact congrArg _ (convert_ofText_of_isAlphanum waiting outer prefixed hc rest).symm
        · rw [hprefixed hne]
      · rw [Bool.not_eq_true] at hc
        have hsymbol emitted waiting outer prefixed :
            run ⟨emitted, stackOf waiting outer, [], prefixed⟩ (c :: rest) =
              wordsAfter emitted (convert waiting outer prefixed (Lexeme.ofText (c :: rest))) :=
          run_symbol_cons hc (fun _ _ _ _ => ih (List.forall_mem_nil _) (absurd rfl)) prefixed
        by_cases hne : operand = []
        · subst hne
          exact hsymbol emitted waiting outer prefixed
        · have hended : run ⟨emitted, stackOf waiting outer, operand, false⟩ (c :: rest) =
              run ⟨emitted ++ [operand], stackOf waiting outer, [], false⟩ (c :: rest) := by
            rw [← run_endOperand _ hc, endOperand, if_neg hne]
          have hlexemes : Lexeme.ofText (operand ++ c :: rest) = _ :=
            Lexeme.ofText_run_append hne hoperand hc
          rw [hprefixed hne, hended, hsymbol, hlexemes]
          exact (wordsAfter_map_append emitted [.operand operand] _).symm

/-- Conversion on one stack gives the words of the postfix form, and meets the obstacle
where there is none. -/
theorem run_initial (text : Text) : initial.run text = wordsAfter [] (ofInfix text) :=
  @run_stackOf [] [] [] text [] true (List.forall_mem_nil _) (absurd rfl)

/-- Only symbols that have a strength are looked up. -/
theorem run_initial_ne_unranked (text : Text) (symbol : Char) :
    initial.run text ≠ .error (.unranked symbol) := by
  rw [run_initial]
  cases ofInfix text with
  | ok items => exact nofun
  | error obstacle => exact nofun

end Machine

end Calculator.Postfix
