import Calculator.Proofs.Answers
import Calculator.Proofs.Nesting
import Calculator.Proofs.Outlines
import Calculator.Proofs.Supply

/-! # Operators without operands

The form of expressions lets parentheses close behind an operator. There the
conversion releases an operator before its right operand is read. This is a
defect if all operators that wait are released at once, which happens when the
parenthesis was opened before the first operand. It is one as well if a sign
follows, because the sign is taken for an operator then. All other expressions
that convert have streams without defects.
-/

namespace Calculator

namespace Postfix

namespace Lexeme

def isParenthesis : Lexeme → Bool
  | .opening | .closing => true
  | _ => false

end Lexeme

/-- The last of some lexemes, parentheses apart. -/
def lastRead? (read : List Lexeme) : Option Lexeme :=
  (read.filter fun lexeme => !lexeme.isParenthesis).getLast?

theorem lastRead?_append_parenthesis {lexeme : Lexeme} (hlexeme : lexeme.isParenthesis = true)
    (read : List Lexeme) : lastRead? (read ++ [lexeme]) = lastRead? read := by
  rw [lastRead?, List.filter_append, List.filter_cons_of_neg (by simp [hlexeme]), List.filter_nil,
    List.append_nil, lastRead?]

theorem lastRead?_append {lexeme : Lexeme} (hlexeme : lexeme.isParenthesis = false)
    (read : List Lexeme) : lastRead? (read ++ [lexeme]) = some lexeme := by
  rw [lastRead?, List.filter_append, List.filter_cons_of_pos (by simp [hlexeme]), List.filter_nil,
    List.getLast?_concat]

def AwaitsOperand (read : List Lexeme) : Prop :=
  ∃ operator, lastRead? read = some (.operator operator)

theorem AwaitsOperand.append_parenthesis {read : List Lexeme} (h : AwaitsOperand read)
    {lexeme : Lexeme} (hlexeme : lexeme.isParenthesis = true) :
    AwaitsOperand (read ++ [lexeme]) := by
  rw [AwaitsOperand, lastRead?_append_parenthesis hlexeme]
  exact h

def Bare (read : List Lexeme) : Prop :=
  ∀ text, .operand text ∉ read

/-- Whether an operator is short of operands once a lexeme is read behind others.
A parenthesis starves it that closes behind an operator and was opened before
the first operand, and so does an operator directly behind any parenthesis that
closes behind an operator. -/
def Starves (read : List Lexeme) : Lexeme → Prop
  | .closing =>
      AwaitsOperand read ∧
        ∃ before inside, read = before ++ .opening :: inside ∧ Bare before ∧ Balanced inside
  | .operator _ => AwaitsOperand read ∧ read.getLast? = some .closing
  | _ => False

/-- Whether lexemes behind others leave an operator short of operands. -/
def StarvedBehind (read lexemes : List Lexeme) : Prop :=
  ∃ between lexeme rest, lexemes = between ++ lexeme :: rest ∧ Starves (read ++ between) lexeme

/-- Whether an operator of a text is short of operands. -/
def Starved (text : Text) : Prop :=
  StarvedBehind [] (Lexeme.ofText text)

theorem not_starvedBehind_nil (read : List Lexeme) : ¬ StarvedBehind read [] := by
  intro hstarved
  obtain ⟨between, lexeme, rest, heq, _⟩ := hstarved
  exact List.append_ne_nil_of_right_ne_nil _ (List.cons_ne_nil _ _) heq.symm

theorem starvedBehind_cons_iff {read rest : List Lexeme} {lexeme : Lexeme} :
    StarvedBehind read (lexeme :: rest) ↔
      Starves read lexeme ∨ StarvedBehind (read ++ [lexeme]) rest := by
  constructor
  · intro hstarved
    obtain ⟨between, found, after, heq, hstarves⟩ := hstarved
    cases between with
    | nil =>
        obtain ⟨rfl, rfl⟩ := List.cons.inj heq
        rw [List.append_nil] at hstarves
        exact Or.inl hstarves
    | cons next others =>
        obtain ⟨rfl, rfl⟩ := List.cons.inj heq
        refine Or.inr ⟨others, found, after, rfl, ?_⟩
        rwa [List.append_assoc]
  · rintro (hstarves | ⟨between, found, after, rfl, hstarves⟩)
    · exact ⟨[], lexeme, rest, rfl, by rwa [List.append_nil]⟩
    · refine ⟨lexeme :: between, found, after, rfl, ?_⟩
      rwa [List.append_assoc] at hstarves

theorem starvedBehind_cons_of_not {read rest : List Lexeme} {lexeme : Lexeme}
    (hstarves : ¬ Starves read lexeme) :
    StarvedBehind read (lexeme :: rest) ↔ StarvedBehind (read ++ [lexeme]) rest :=
  starvedBehind_cons_iff.trans (or_iff_right hstarves)

theorem not_awaitsOperand_of_operand {read : List Lexeme} {text : Text}
    (hlast : lastRead? read = some (.operand text)) : ¬ AwaitsOperand read := by
  intro hawaits
  obtain ⟨operator, hoperator⟩ := hawaits
  rw [hlast] at hoperator
  cases hoperator

theorem not_bare_of_operand {read : List Lexeme} {text : Text}
    (hlast : lastRead? read = some (.operand text)) : ¬ Bare read :=
  fun hbare => hbare text (List.mem_of_mem_filter (List.mem_of_getLast? hlast))

theorem not_bare_append {read : List Lexeme} (hbare : ¬ Bare read) (more : List Lexeme) :
    ¬ Bare (read ++ more) :=
  fun h => hbare fun text hmem => h text (List.mem_append_left more hmem)

def binaries (operations : List Operation) : Nat :=
  operations.countP fun operation => operation ≠ .negate

/-- The number of binary operators that wait on some levels. -/
def held : List (List Operation) → Nat
  | [] => 0
  | waiting :: outer => binaries waiting + held outer

theorem held_cons (waiting : List Operation) (outer : List (List Operation)) :
    held (waiting :: outer) = binaries waiting + held outer :=
  rfl

theorem held_nil_cons (levels : List (List Operation)) : held ([] :: levels) = held levels := by
  rw [held_cons]
  exact Nat.zero_add _

theorem held_waitPrefixed_cons (operator : Operator) (waiting : List Operation)
    (outer : List (List Operation)) :
    held (waitPrefixed operator waiting :: outer) = held (waiting :: outer) := by
  rw [held_cons, held_cons, waitPrefixed]
  split <;> simp [binaries]

theorem binaries_binary_cons (operator : Operator) (waiting : List Operation) :
    binaries (.binary operator :: waiting) = binaries waiting + 1 := by
  simp [binaries]

/-- What an operator releases and what it leaves waiting is all that waited. -/
theorem binaries_takeWhile_add (operator : Operator) (waiting : List Operation) :
    binaries (waiting.takeWhile (precedes operator)) +
      binaries (waiting.dropWhile (precedes operator)) = binaries waiting := by
  rw [binaries, binaries, ← List.countP_append, List.takeWhile_append_dropWhile, binaries]

/-- Released operations find their operands if fewer of them are binary than
there are values. -/
theorem depthAfter?_map_operation_append {depth : Nat} (hdepth : 1 ≤ depth)
    (operations : List Operation) (items : List Item) :
    depthAfter? depth (operations.map .operation ++ items) =
      if binaries operations < depth then depthAfter? (depth - binaries operations) items
      else none := by
  induction operations generalizing depth with
  | nil => exact (if_pos (show binaries [] < depth from hdepth)).symm
  | cons operation rest ih =>
      rw [List.map_cons, List.cons_append, depthAfter?_cons]
      cases operation with
      | negate =>
          have hcount : binaries (.negate :: rest) = binaries rest := by simp [binaries]
          rw [depthAfterItem?, if_neg (by omega), Option.bind_some, ih hdepth, hcount]
      | binary operator =>
          rw [depthAfterItem?, binaries_binary_cons]
          by_cases hfew : depth < 2
          · rw [if_pos hfew, if_neg (by omega)]
            rfl
          · rw [if_neg hfew, Option.bind_some, ih (by omega)]
            have hsub : depth - 1 - binaries rest = depth - (binaries rest + 1) := by omega
            rw [hsub]
            exact if_congr (by omega) rfl rfl

variable {waiting : List Operation} {outer : List (List Operation)} {prefixed : Bool}
  {rest : List Lexeme} {items : List Item} {depth : Nat}

theorem exists_convert_of_closing
    (hconvert : convert waiting outer prefixed (.closing :: rest) = .ok items) :
    ∃ enclosing others found, outer = enclosing :: others ∧
      convert enclosing others false rest = .ok found ∧
      items = waiting.map .operation ++ found := by
  cases outer with
  | nil => cases hconvert
  | cons enclosing others =>
      obtain ⟨found, hfound, rfl⟩ := map_eq_ok_iff.mp hconvert
      exact ⟨enclosing, others, found, rfl, hfound, rfl⟩

theorem exists_convert_of_binary {operator : Operator}
    (hconvert : convert waiting outer false (.operator operator :: rest) = .ok items) :
    ∃ found, convert (.binary operator :: waiting.dropWhile (precedes operator)) outer true rest =
        .ok found ∧ items = (waiting.takeWhile (precedes operator)).map .operation ++ found := by
  rw [convert, if_neg Bool.false_ne_true] at hconvert
  obtain ⟨found, hfound, rfl⟩ := map_eq_ok_iff.mp hconvert
  exact ⟨found, hfound, rfl⟩

/-- A binary operator waits for each one that it releases, and one more. -/
theorem held_binary_cons (operator : Operator) (waiting : List Operation)
    (outer : List (List Operation)) :
    held ((.binary operator :: waiting.dropWhile (precedes operator)) :: outer) +
      binaries (waiting.takeWhile (precedes operator)) = held (waiting :: outer) + 1 := by
  have hall := binaries_takeWhile_add operator waiting
  rw [held_cons, held_cons, binaries_binary_cons]
  omega

/-- The number of operands that a stage awaits. -/
def Stage.missing : Stage → Nat
  | .operand => 0
  | .start | .operator => 1

/-- With too few operands for the operators that wait, a shortage is met. -/
theorem depthAfter?_eq_none_of_lack {stage : Stage} (h : stage.CompletedBy rest)
    (hconvert : convert waiting outer prefixed rest = .ok items) (hdepth : 1 ≤ depth)
    (hlack : depth + stage.missing ≤ held (waiting :: outer))
    (hprefixed : stage = .operand → prefixed = false) : depthAfter? depth items = none := by
  -- each operand adds a value and lets one operator come, so the lack stays
  induction h generalizing waiting outer prefixed items depth with
  | done =>
      cases outer with
      | nil =>
          cases hconvert
          have hshort : ¬ binaries waiting < depth := by
            rw [held_cons] at hlack
            simp [held, Stage.missing] at hlack
            omega
          have hempty := depthAfter?_map_operation_append hdepth waiting []
          rwa [if_neg hshort, List.append_nil] at hempty
      | cons => cases hconvert
  | @opening stage _ hstage _ ih =>
      have hlack' : depth + stage.missing ≤ held ([] :: waiting :: outer) := by
        rw [held_nil_cons]
        exact hlack
      exact ih hconvert hdepth hlack' fun h => absurd h hstage
  | @sign stage _ hstage sign _ ih =>
      cases prefixed with
      | true =>
          rw [← held_waitPrefixed_cons sign.operator] at hlack
          exact ih hconvert hdepth hlack fun h => absurd h hstage
      | false =>
          obtain ⟨found, hfound, rfl⟩ := exists_convert_of_binary hconvert
          have hheld := held_binary_cons sign.operator waiting outer
          rw [depthAfter?_map_operation_append hdepth]
          split
          next => exact ih hfound (by omega) (by omega) fun h => absurd h hstage
          next => rfl
  | @operand stage _ hstage atom _ ih =>
      obtain ⟨found, hfound, rfl⟩ := map_eq_ok_iff.mp hconvert
      change depthAfter? (depth + 1) found = none
      refine ih hfound (Nat.le_add_left 1 depth) ?_ fun _ => rfl
      cases stage with
      | operand => exact absurd rfl hstage
      | start => exact hlack
      | operator => exact hlack
  | closing _ _ ih =>
      obtain ⟨enclosing, others, found, rfl, hfound, rfl⟩ := exists_convert_of_closing hconvert
      rw [held_cons] at hlack
      rw [depthAfter?_map_operation_append hdepth]
      split
      next => exact ih hfound (by omega) (by omega) fun _ => rfl
      next => rfl
  | operator operator _ ih =>
      rw [hprefixed rfl] at hconvert
      obtain ⟨found, hfound, rfl⟩ := exists_convert_of_binary hconvert
      have hheld := held_binary_cons operator waiting outer
      simp only [Stage.missing] at hlack ih
      rw [depthAfter?_map_operation_append hdepth]
      split
      next => exact ih hfound (by omega) (by omega) nofun
      next => rfl
  | foreign c => cases hconvert

/-- The levels that are open behind lexemes, with what waits on them. No binary
operator waits around a parenthesis exactly if no operand stands before it. -/
inductive Nested : List Lexeme → List (List Operation) → Prop where
  | flat {inside : List Lexeme} (hinside : Balanced inside) : Nested inside []
  | opened {before inside : List Lexeme} {waiting : List Operation}
      {outer : List (List Operation)} (hbefore : Nested before outer)
      (hbare : held (waiting :: outer) = 0 ↔ Bare before) (hinside : Balanced inside) :
      Nested (before ++ .opening :: inside) (waiting :: outer)

namespace Nested

variable {read : List Lexeme}

theorem append_balanced (h : Nested read outer) {more : List Lexeme} (hmore : Balanced more) :
    Nested (read ++ more) outer := by
  cases h with
  | flat hinside => exact .flat (hinside.append hmore)
  | opened hbefore hbare hinside =>
      rw [List.append_assoc]
      exact .opened hbefore hbare (hinside.append hmore)

theorem opening (h : Nested read outer) (hbare : held (waiting :: outer) = 0 ↔ Bare read) :
    Nested (read ++ [.opening]) (waiting :: outer) :=
  .opened h hbare .nil

theorem closing {enclosing : List Operation} (h : Nested read (enclosing :: outer)) :
    Nested (read ++ [.closing]) outer := by
  cases h with
  | opened hbefore hbare hinside =>
      rw [List.append_assoc]
      exact hbefore.append_balanced hinside.group

/-- The innermost parenthesis was opened before the first operand exactly if no
binary operator waits around it. -/
theorem exists_bare_iff {enclosing : List Operation} (h : Nested read (enclosing :: outer)) :
    (∃ before inside, read = before ++ .opening :: inside ∧ Bare before ∧ Balanced inside) ↔
      held (enclosing :: outer) = 0 := by
  cases h with
  | @opened before inside _ _ _ hbare hinside =>
      rw [hbare]
      constructor
      · -- the parenthesis that was left open is the only one with a balanced inside
        rintro ⟨before', inside', heq, hbefore, hinside'⟩
        rwa [hinside.eq_of_append_opening_eq hinside' heq]
      · intro hbefore
        exact ⟨before, inside, rfl, hbefore, hinside⟩

end Nested

def OnlyOpens (read : List Lexeme) : Prop :=
  ∀ lexeme ∈ read, lexeme = .opening ∨ ∃ operator, lexeme = .operator operator

namespace OnlyOpens

variable {read : List Lexeme}

theorem append (h : OnlyOpens read) {lexeme : Lexeme}
    (hlexeme : lexeme = .opening ∨ ∃ operator, lexeme = .operator operator) :
    OnlyOpens (read ++ [lexeme]) :=
  List.forall_mem_append.mpr ⟨h, List.forall_mem_singleton.mpr hlexeme⟩

theorem bare (h : OnlyOpens read) : Bare read := by
  intro text hmem
  rcases h _ hmem with hopening | ⟨operator, hoperator⟩
  · cases hopening
  · cases hoperator

theorem getLast?_ne (h : OnlyOpens read) : read.getLast? ≠ some .closing := by
  intro hlast
  rcases h _ (List.mem_of_getLast? hlast) with hopening | ⟨operator, hoperator⟩
  · cases hopening
  · cases hoperator

end OnlyOpens

/-- How the lexemes read so far, the prefix position, the operations that wait
and the number of values go together at a stage, as long as no operator was
short of operands. -/
inductive Reached (read : List Lexeme) (levels : List (List Operation)) :
    Stage → Bool → Nat → Prop where
  | start (hopens : OnlyOpens read) (hheld : held levels = 0) : Reached read levels .start true 0
  | operand {depth : Nat} {text : Text} (hlast : lastRead? read = some (.operand text))
      (hdepth : depth = held levels + 1) : Reached read levels .operand false depth
  | operator {prefixed : Bool} {depth : Nat} (hawaits : AwaitsOperand read) (hbare : ¬ Bare read)
      (hprefixed : prefixed = false ↔ read.getLast? = some .closing)
      (hdepth : depth = held levels) (hpos : 1 ≤ depth) :
      Reached read levels .operator prefixed depth

namespace Reached

variable {read : List Lexeme} {levels : List (List Operation)} {stage : Stage}

/-- Where an operand is awaited, a sign in prefix position starves no operator. -/
theorem not_starves_of_prefixed (h : Reached read levels stage true depth) (operator : Operator) :
    ¬ Starves read (.operator operator) := by
  intro hstarves
  cases h with
  | start hopens => exact hopens.getLast?_ne hstarves.2
  | operator _ _ hprefixed => cases hprefixed.mpr hstarves.2

theorem opening (h : Reached read (waiting :: outer) stage prefixed depth)
    (hstage : stage ≠ .operand) (hnested : Nested read outer) :
    Nested (read ++ [.opening]) (waiting :: outer) ∧
      Reached (read ++ [.opening]) ([] :: waiting :: outer) stage true depth := by
  have hheld := held_nil_cons (waiting :: outer)
  cases h with
  | start hopens hnone =>
      refine ⟨hnested.opening ⟨fun _ => hopens.bare, fun _ => hnone⟩, ?_⟩
      exact .start (hopens.append (Or.inl rfl)) (hheld.trans hnone)
  | operand => exact absurd rfl hstage
  | operator hawaits hbare _ hdepth hpos =>
      refine ⟨hnested.opening ⟨fun hnone => ?_, fun hread => absurd hread hbare⟩, ?_⟩
      · omega
      · exact .operator (hawaits.append_parenthesis rfl) (not_bare_append hbare _) (by simp)
          (hdepth.trans hheld.symm) hpos

theorem sign (h : Reached read (waiting :: outer) stage true depth) (hstage : stage ≠ .operand)
    (operator : Operator) :
    Reached (read ++ [.operator operator]) (waitPrefixed operator waiting :: outer) stage true
      depth := by
  have hheld := held_waitPrefixed_cons operator waiting outer
  cases h with
  | start hopens hnone => exact .start (hopens.append (Or.inr ⟨_, rfl⟩)) (hheld.trans hnone)
  | operator hawaits hbare _ hdepth hpos =>
      exact .operator ⟨operator, lastRead?_append rfl read⟩ (not_bare_append hbare _) (by simp)
        (hdepth.trans hheld.symm) hpos

theorem operand_append (h : Reached read levels stage prefixed depth) (hstage : stage ≠ .operand)
    (text : Text) : Reached (read ++ [.operand text]) levels .operand false (depth + 1) := by
  apply Reached.operand (lastRead?_append rfl read)
  cases h with
  | start _ hnone => rw [hnone]
  | operand => exact absurd rfl hstage
  | operator _ _ _ hdepth => rw [hdepth]

/-- An operator behind an operand releases no more than there are operands for. -/
theorem join (h : Reached read (waiting :: outer) .operand prefixed depth) (operator : Operator) :
    ¬ Starves read (.operator operator) ∧
      binaries (waiting.takeWhile (precedes operator)) < depth ∧
      Reached (read ++ [.operator operator])
        ((.binary operator :: waiting.dropWhile (precedes operator)) :: outer) .operator true
        (depth - binaries (waiting.takeWhile (precedes operator))) := by
  have hmore := held_binary_cons operator waiting outer
  have hwaiting := held_cons (.binary operator :: waiting.dropWhile (precedes operator)) outer
  rw [binaries_binary_cons] at hwaiting
  cases h with
  | operand hlast hdepth =>
      refine ⟨fun hstarves => not_awaitsOperand_of_operand hlast hstarves.1, by omega, ?_⟩
      exact .operator ⟨operator, lastRead?_append rfl read⟩
        (not_bare_append (not_bare_of_operand hlast) _) (by simp) (by omega) (by omega)

/-- A closing parenthesis behind which an operator is short of operands finds one
value for each operator that it releases, and no more. -/
theorem le_binaries_of_starves {enclosing : List Operation}
    (h : Reached read (waiting :: enclosing :: outer) stage prefixed depth)
    (hnested : Nested read (enclosing :: outer)) (hstarves : Starves read .closing)
    (hstage : stage ≠ .start) : 1 ≤ depth ∧ depth ≤ binaries waiting := by
  have hnone := hnested.exists_bare_iff.mp hstarves.2
  have hall := held_cons waiting (enclosing :: outer)
  cases h with
  | start => exact absurd rfl hstage
  | operand hlast => exact absurd hstarves.1 (not_awaitsOperand_of_operand hlast)
  | operator _ _ _ hdepth hpos => exact ⟨hpos, by omega⟩

theorem closing {enclosing : List Operation}
    (h : Reached read (waiting :: enclosing :: outer) stage prefixed depth)
    (hnested : Nested read (enclosing :: outer)) (hfed : ¬ Starves read .closing)
    (hstage : stage ≠ .start) :
    binaries waiting < depth ∧
      Reached (read ++ [.closing]) (enclosing :: outer) stage false (depth - binaries waiting) := by
  have hall := held_cons waiting (enclosing :: outer)
  cases h with
  | start => exact absurd rfl hstage
  | operand hlast hdepth =>
      have hlast' : lastRead? (read ++ [.closing]) = some _ :=
        (lastRead?_append_parenthesis rfl read).trans hlast
      exact ⟨by omega, .operand hlast' (by omega)⟩
  | operator hawaits hbare _ hdepth hpos =>
      -- some operator waits outside, so that not all values are used up inside
      have hheld : held (enclosing :: outer) ≠ 0 :=
        fun hnone => hfed ⟨hawaits, hnested.exists_bare_iff.mpr hnone⟩
      refine ⟨by omega, ?_⟩
      exact .operator (hawaits.append_parenthesis rfl) (not_bare_append hbare _) (by simp)
        (by omega) (by omega)

end Reached

/-- The operations of a converted outline find their operands and leave one
value, or one of its operators is short of operands. -/
theorem depthAfter?_convert {stage : Stage} (h : stage.CompletedBy rest) {read : List Lexeme}
    (hconvert : convert waiting outer prefixed rest = .ok items) (hnested : Nested read outer)
    (hreached : Reached read (waiting :: outer) stage prefixed depth) :
    (StarvedBehind read rest ∧ depthAfter? depth items = none) ∨
      (¬ StarvedBehind read rest ∧ depthAfter? depth items = some 1) := by
  -- by induction on the outline; `Reached` is kept until the first operator is starved
  induction h generalizing waiting outer prefixed items depth read with
  | done =>
      cases outer with
      | nil =>
          cases hconvert
          cases hreached with
          | operand _ hdepth =>
              have hwaiting : held [waiting] = binaries waiting := by
                rw [held_cons]
                rfl
              have hpos : 1 ≤ depth := by omega
              have hvalues := depthAfter?_map_operation_append hpos waiting []
              rw [if_pos (by omega), List.append_nil] at hvalues
              refine Or.inr ⟨not_starvedBehind_nil read, hvalues.trans ?_⟩
              rw [hdepth, hwaiting, Nat.add_sub_cancel_left]
              rfl
      | cons => cases hconvert
  | opening hstage _ ih =>
      obtain ⟨hnested', hreached'⟩ := hreached.opening hstage hnested
      rw [starvedBehind_cons_of_not id]
      exact ih hconvert hnested' hreached'
  | @sign stage _ hstage sign hrest ih =>
      have hnested' : Nested (read ++ [.operator sign.operator]) outer :=
        hnested.append_balanced rfl
      cases prefixed with
      | true =>
          rw [starvedBehind_cons_of_not (hreached.not_starves_of_prefixed sign.operator)]
          exact ih hconvert hnested' (hreached.sign hstage sign.operator)
      | false =>
          -- a parenthesis closed behind an operator, so the sign is taken for one more operator
          obtain ⟨found, hfound, rfl⟩ := exists_convert_of_binary hconvert
          have hmore := held_binary_cons sign.operator waiting outer
          cases hreached with
          | operand => exact absurd rfl hstage
          | operator hawaits _ hprefixed hdepth hpos =>
              refine Or.inl ⟨starvedBehind_cons_iff.mpr (Or.inl ⟨hawaits, hprefixed.mp rfl⟩), ?_⟩
              rw [depthAfter?_map_operation_append hpos]
              split
              next =>
                have hlack : depth - binaries (waiting.takeWhile (precedes sign.operator)) +
                    Stage.missing .operator ≤ held ((.binary sign.operator ::
                      waiting.dropWhile (precedes sign.operator)) :: outer) := by
                  rw [Stage.missing]
                  omega
                exact depthAfter?_eq_none_of_lack hrest hfound (by omega) hlack nofun
              next => rfl
  | operand hstage atom _ ih =>
      obtain ⟨found, hfound, rfl⟩ := map_eq_ok_iff.mp hconvert
      rw [starvedBehind_cons_of_not id]
      change (_ ∧ depthAfter? (depth + 1) found = none) ∨ _ ∧ depthAfter? (depth + 1) found = some 1
      exact ih hfound (hnested.append_balanced rfl) (hreached.operand_append hstage atom.text)
  | closing hstage _ ih =>
      obtain ⟨enclosing, others, found, rfl, hfound, rfl⟩ := exists_convert_of_closing hconvert
      by_cases hstarves : Starves read .closing
      · obtain ⟨hpos, hfew⟩ := hreached.le_binaries_of_starves hnested hstarves hstage
        refine Or.inl ⟨starvedBehind_cons_iff.mpr (Or.inl hstarves), ?_⟩
        rw [depthAfter?_map_operation_append hpos, if_neg (Nat.not_lt.mpr hfew)]
      · obtain ⟨hmany, hreached'⟩ := hreached.closing hnested hstarves hstage
        rw [starvedBehind_cons_of_not hstarves, depthAfter?_map_operation_append (by omega),
          if_pos hmany]
        exact ih hfound hnested.closing hreached'
  | operator operator _ ih =>
      obtain ⟨hfed, hmany, hreached'⟩ := hreached.join operator
      cases hreached with
      | operand =>
          obtain ⟨found, hfound, rfl⟩ := exists_convert_of_binary hconvert
          rw [starvedBehind_cons_of_not hfed, depthAfter?_map_operation_append (by omega),
            if_pos hmany]
          exact ih hfound (hnested.append_balanced rfl) hreached'
  | foreign c => cases hconvert

end Postfix

end Calculator
