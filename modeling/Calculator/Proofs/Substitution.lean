import Mathlib.Data.List.Forall2
import Calculator.Postfix.Evaluation
import Calculator.Proofs.Continuations
import Calculator.Proofs.Listings
import Calculator.Proofs.Streams

/-! # Values in place of names

A name with a value of at least zero may be written as the digits of the value. The text
keeps the form of an expression, since the digits are cut off as one operand where the name
was, and the conversion looks at no operand. What is evaluated therefore does the same at
every step.
-/

namespace Calculator

namespace Token

variable {table : Variables} {first second first' second' : Token}

/-- How a token may be replaced: it is kept, or it is a name with a value of at least zero, and
the digits of the value take its place. -/
inductive ReplacedBy (table : Variables) : Token → Token → Prop where
  | kept (token : Token) : ReplacedBy table token token
  | resolved {name : Text} {value : Int} (hbound : table.get? name = some value)
      (hvalue : 0 ≤ value) : ReplacedBy table ⟨.name, name⟩ ⟨.number, Numeral.write value⟩

theorem form_number_write {value : Int} (hvalue : 0 ≤ value) :
    Kind.Form .number (Numeral.write value) := by
  obtain ⟨n, rfl⟩ := Int.eq_ofNat_of_zero_le hvalue
  exact ⟨Nat.toDigits_ne_nil,
    fun _ hc => Nat.isDigit_of_mem_toDigits (by decide) (by decide) hc⟩

theorem ReplacedBy.shaped (h : ReplacedBy table first second) (hshaped : first.Shaped) :
    second.Shaped := by
  cases h with
  | kept => exact hshaped
  | resolved _ hvalue => exact shaped_of_form (form_number_write hvalue) nofun

theorem shaped_of_replacedBy {tokens tokens' : List Token}
    (h : List.Forall₂ (ReplacedBy table) tokens tokens')
    (hshaped : ∀ token ∈ tokens, Shaped token) : ∀ token ∈ tokens', Shaped token := by
  induction h with
  | nil => exact hshaped
  | cons hfirst _ ih =>
      obtain ⟨htoken, hrest⟩ := List.forall_mem_cons.mp hshaped
      exact List.forall_mem_cons.mpr ⟨hfirst.shaped htoken, ih hrest⟩

theorem ReplacedBy.isOperand_eq (h : ReplacedBy table first second) :
    second.isOperand = first.isOperand := by
  cases h <;> rfl

/-- Whether neighbouring tokens stay apart whatever operands stand for operands. -/
def Parted (first second : Token) : Prop :=
  ¬ Fuses first second ∧ ¬ (first.isOperand = true ∧ second.isOperand = true)

theorem ReplacedBy.parted (hfirst : ReplacedBy table first first')
    (hsecond : ReplacedBy table second second') (hparted : Parted first second) :
    Parted first' second' := by
  have hoperands : ¬ (first'.isOperand = true ∧ second'.isOperand = true) := by
    rw [hfirst.isOperand_eq, hsecond.isOperand_eq]
    exact hparted.2
  refine ⟨?_, hoperands⟩
  rintro (⟨hkind, hkind'⟩ | ⟨hkind, hkind'⟩ | ⟨hkind, hkind', hhead⟩)
  · exact hoperands ⟨by simp [isOperand, hkind], by simp [isOperand, hkind']⟩
  · exact hoperands ⟨by simp [isOperand, hkind], by simp [isOperand, hkind']⟩
  · -- signs are never replaced
    cases hfirst with
    | resolved => cases hkind
    | kept =>
        cases hsecond with
        | resolved => cases hkind'
        | kept => exact hparted.1 (Or.inr (Or.inr ⟨hkind, hkind', hhead⟩))

theorem isChain_parted_of_replacedBy {tokens tokens' : List Token}
    (h : List.Forall₂ (ReplacedBy table) tokens tokens') (hparted : tokens.IsChain Parted) :
    tokens'.IsChain Parted := by
  induction h with
  | nil => exact List.isChain_nil
  | cons hfirst hrest ih =>
      obtain ⟨hnext, hothers⟩ := List.isChain_cons.mp hparted
      refine List.isChain_cons.mpr ⟨fun second' hmem => ?_, ih hothers⟩
      cases hrest with
      | nil => cases hmem
      | cons hsecond _ =>
          obtain rfl := Option.some.inj hmem
          exact hfirst.parted hsecond (hnext _ rfl)

end Token

namespace Expression.Progress

variable {table : Variables} {progress next : Progress} {token : Token}
  {tokens tokens' : List Token}

theorem place_of_next? (hoperand : token.isOperand = true)
    (hnext : progress.next? token = some next) : next.place = .operand := by
  obtain ⟨place, joined, signed⟩ := progress
  have hkinds := hoperand
  rw [Token.isOperand, Bool.or_eq_true, decide_eq_true_eq, decide_eq_true_eq] at hkinds
  rcases hkinds with hkind | hkind <;> cases place <;>
    simp [next?, beginOperand?, Token.isSingleSign, hoperand, hkind] at hnext <;> rw [← hnext]

/-- An accepted text has no two operands in a row. -/
theorem isChain_parted_of_accepts
    (hapart : tokens.IsChain fun first second => ¬ Token.Fuses first second)
    (haccepts : progress.accepts tokens = true) : tokens.IsChain Token.Parted := by
  induction tokens generalizing progress with
  | nil => exact List.isChain_nil
  | cons token rest ih =>
      obtain ⟨next, hnext, hothers⟩ := accepts_cons_iff.mp haccepts
      obtain ⟨hneighbour, hrest⟩ := List.isChain_cons.mp hapart
      refine List.isChain_cons.mpr ⟨fun second hmem => ?_, ih hrest hothers⟩
      refine ⟨hneighbour second hmem, fun ⟨htoken, hsecond⟩ => ?_⟩
      obtain ⟨others, rfl⟩ := List.head?_eq_some_iff.mp hmem
      have hlone := isOperand_eq_false_of_accepts (place_of_next? htoken hnext) hothers
      rw [hsecond] at hlone
      cases hlone

theorem next?_eq_of_replacedBy {token' : Token} (h : Token.ReplacedBy table token token') :
    progress.next? token' = progress.next? token := by
  obtain ⟨place, joined, signed⟩ := progress
  cases h with
  | kept => rfl
  | resolved => cases place <;> rfl

/-- The form of expressions makes no difference between operands. -/
theorem accepts_eq_of_replacedBy (h : List.Forall₂ (Token.ReplacedBy table) tokens tokens') :
    progress.accepts tokens' = progress.accepts tokens := by
  induction h generalizing progress with
  | nil => rfl
  | cons hfirst _ ih =>
      rw [accepts, accepts, next?_eq_of_replacedBy hfirst]
      cases progress.next? _ with
      | none => rfl
      | some next => exact ih

end Expression.Progress

namespace Postfix

variable {table : Variables}

namespace Lexeme

/-- Whether two lexemes are the same, or operands with the same value. -/
inductive Alike (table : Variables) : Lexeme → Lexeme → Prop where
  | same (lexeme : Lexeme) : Alike table lexeme lexeme
  | operand {text text' : Text} (hvalue : operandValue table text' = operandValue table text) :
      Alike table (.operand text) (.operand text')

theorem ofText_run {run : Text} (hrun : IsRun run) : ofText run = [.operand run] := by
  have hlexemes : ofText (run ++ []) = _ := ofText_run_append hrun.1 hrun.2 rfl
  rwa [List.append_nil] at hlexemes

theorem ofText_symbols_append {symbols : Text} (hsymbols : ∀ c ∈ symbols, c.isAlphanum = false)
    (rest : Text) : ofText (symbols ++ rest) = ofText symbols ++ ofText rest := by
  induction symbols with
  | nil => rfl
  | cons c others ih =>
      obtain ⟨hc, hothers⟩ := List.forall_mem_cons.mp hsymbols
      rw [List.cons_append, ofText_symbol_cons hc, ofText_symbol_cons hc, ih hothers,
        List.cons_append]

end Lexeme

/-- What the evaluation of items does to a stack. -/
def action (table : Variables) (items : List Item) (stack : List Int) : Except Fault (List Int) :=
  run table stack items

theorem map_action_append (front : List Item) (result : Except Obstacle (List Item)) :
    (result.map (front ++ ·)).map (action table) =
      (result.map (action table)).map fun rest stack => (action table front stack).bind rest := by
  rw [map_map, map_map]
  congr 1
  funext items stack
  exact run_append table stack front items

theorem map_action_congr {front front' : List Item} {result result' : Except Obstacle (List Item)}
    (hfront : action table front' = action table front)
    (hresult : result'.map (action table) = result.map (action table)) :
    (result'.map (front' ++ ·)).map (action table) =
      (result.map (front ++ ·)).map (action table) := by
  rw [map_action_append, map_action_append, hfront, hresult]

theorem action_operand {text text' : Text}
    (hvalue : operandValue table text' = operandValue table text) :
    action table [.operand text'] = action table [.operand text] := by
  funext stack
  rw [action, action, run_cons, run_cons, step, step, hvalue]

/-- Operands with the same values are converted to items that act alike. -/
theorem convert_map_action {lexemes lexemes' : List Lexeme}
    (h : List.Forall₂ (Lexeme.Alike table) lexemes lexemes') (waiting : List Operation)
    (outer : List (List Operation)) (prefixed : Bool) :
    (convert waiting outer prefixed lexemes').map (action table) =
      (convert waiting outer prefixed lexemes).map (action table) := by
  induction h generalizing waiting outer prefixed with
  | nil => rfl
  | @cons lexeme lexeme' rest rest' hlexeme _ ih =>
      cases hlexeme with
      | operand hvalue => exact map_action_congr (action_operand hvalue) (ih waiting outer false)
      | same =>
          cases lexeme with
          | operand text => exact map_action_congr (action_operand rfl) (ih waiting outer false)
          | opening => exact ih [] (waiting :: outer) true
          | closing =>
              cases outer with
              | nil => rfl
              | cons enclosing outer => exact map_action_congr rfl (ih enclosing outer false)
          | operator operator =>
              rw [convert, convert]
              split
              next => exact ih _ outer true
              next => exact map_action_congr rfl (ih _ outer true)
          | foreign c => rfl

end Postfix

namespace Token

open Postfix

variable {table : Variables}

theorem Shaped.isRun {token : Token} (hshaped : token.Shaped)
    (hoperand : token.isOperand = true) : Lexeme.IsRun token.text := by
  obtain ⟨atom, hatom⟩ := hshaped.exists_atom hoperand
  rw [hatom]
  exact ⟨atom.text_ne_nil, fun _ hc => Atom.isAlphanum_of_mem_text hc⟩

/-- The lexemes of tokens without two operands in a row are those of each token. -/
theorem lexemes_flatMap_text {tokens : List Token} (hshaped : ∀ token ∈ tokens, Shaped token)
    (hparted : tokens.IsChain Parted) :
    Lexeme.ofText (tokens.flatMap Token.text) =
      tokens.flatMap fun token => Lexeme.ofText token.text := by
  induction tokens with
  | nil => rfl
  | cons token rest ih =>
      obtain ⟨htoken, hrest⟩ := List.forall_mem_cons.mp hshaped
      obtain ⟨hnext, hothers⟩ := List.isChain_cons.mp hparted
      rw [List.flatMap_cons, List.flatMap_cons, ← ih hrest hothers]
      cases hoperand : token.isOperand with
      | false => exact Lexeme.ofText_symbols_append (htoken.isAlphanum_eq_false hoperand) _
      | true =>
          have hrun := htoken.isRun hoperand
          rw [Lexeme.ofText_run hrun]
          refine Lexeme.ofText_run_append hrun.1 hrun.2 ?_
          cases rest with
          | nil => rfl
          | cons next others =>
              have hlone : next.isOperand = false :=
                eq_false_of_ne_true fun h => (hnext next rfl).2 ⟨hoperand, h⟩
              exact (hrest next List.mem_cons_self).beginsOperand_eq_false hlone _

theorem operandValue_of_bound {name : Text} {value : Int} (hname : Kind.Form .name name)
    (hbound : table.get? name = some value) : operandValue table name = .ok value := by
  have hnumber := Numeral.isNumber_eq_false_of_letters hname.1 hname.2
  rw [operandValue, hnumber, if_neg Bool.false_ne_true, hbound]

theorem operandValue_write (table : Variables) {value : Int} (hvalue : 0 ≤ value) :
    operandValue table (Numeral.write value) = .ok value := by
  have hform := form_number_write hvalue
  rw [operandValue, Numeral.isNumber_of_digits hform.1 hform.2, if_pos rfl, Numeral.value,
    Numeral.read?_write]

theorem ReplacedBy.lexemes_alike {token token' : Token} (hshaped : token.Shaped)
    (h : ReplacedBy table token token') :
    List.Forall₂ (Lexeme.Alike table) (Lexeme.ofText token.text) (Lexeme.ofText token'.text) := by
  have hshaped' := h.shaped hshaped
  cases h with
  | kept => exact List.forall₂_same.mpr fun lexeme _ => .same lexeme
  | resolved hbound hvalue =>
      rw [Lexeme.ofText_run (hshaped.isRun rfl), Lexeme.ofText_run (hshaped'.isRun rfl)]
      refine .cons (.operand ?_) .nil
      rw [operandValue_write table hvalue, operandValue_of_bound hshaped.form hbound]

theorem lexemes_alike_of_replacedBy {tokens tokens' : List Token}
    (hshaped : ∀ token ∈ tokens, Shaped token) (hparted : tokens.IsChain Parted)
    (h : List.Forall₂ (ReplacedBy table) tokens tokens') :
    List.Forall₂ (Lexeme.Alike table) (Lexeme.ofText (tokens.flatMap Token.text))
      (Lexeme.ofText (tokens'.flatMap Token.text)) := by
  rw [lexemes_flatMap_text hshaped hparted,
    lexemes_flatMap_text (shaped_of_replacedBy h hshaped) (isChain_parted_of_replacedBy h hparted)]
  have hboth := (List.forall₂_and_left tokens tokens').mpr ⟨hshaped, h⟩
  exact List.rel_flatMap hboth fun _ _ hreplaced => hreplaced.2.lexemes_alike hreplaced.1

end Token

/-- Whether another text has, for some names with values of at least zero, the digits of those
values, and is the same otherwise. -/
def Text.Resolves (table : Variables) (text resolved : Text) : Prop :=
  ∃ tokens, List.Forall₂ (Token.ReplacedBy table) (Token.ofText text) tokens ∧
    tokens.flatMap Token.text = resolved

namespace Postfix

open Expression.Progress

variable {table : Variables} {text resolved : Text}

/-- The tokens of an accepted text stay apart when names are replaced by their values. -/
theorem ofText_of_resolves (haccepts : Expression.accepts (Token.ofText text) = true)
    (hresolves : text.Resolves table resolved) :
    List.Forall₂ (Token.ReplacedBy table) (Token.ofText text) (Token.ofText resolved) := by
  obtain ⟨tokens, hreplaced, rfl⟩ := hresolves
  have hparted := Token.isChain_parted_of_replacedBy hreplaced
    (isChain_parted_of_accepts (Token.isChain_ofText text) haccepts)
  have hshaped := Token.shaped_of_replacedBy hreplaced (Token.shaped_of_mem_ofText text)
  rwa [Token.ofText_flatMap_text hshaped (hparted.imp fun _ _ h => h.1)]

/-- What the evaluation does is the same with the values in the text and in the table. -/
theorem ofInfix_map_action (haccepts : Expression.accepts (Token.ofText text) = true)
    (hresolves : text.Resolves table resolved) :
    (ofInfix resolved).map (action table) = (ofInfix text).map (action table) := by
  have hlexemes := Token.lexemes_alike_of_replacedBy (Token.shaped_of_mem_ofText text)
    (isChain_parted_of_accepts (Token.isChain_ofText text) haccepts)
    (ofText_of_resolves haccepts hresolves)
  rw [Token.flatMap_text_ofText, Token.flatMap_text_ofText] at hlexemes
  exact convert_map_action hlexemes [] [] true

/-- Names may be replaced by the digits of their values. The form of an expression is kept,
it is converted if it was, and its value is the same, or the fault for which it has none. -/
theorem evaluate_eq_of_resolves (haccepts : Expression.accepts (Token.ofText text) = true)
    (hresolves : text.Resolves table resolved) :
    Expression.accepts (Token.ofText resolved) = true ∧
      ((∃ obstacle, ofInfix resolved = .error obstacle) ↔
        ∃ obstacle, ofInfix text = .error obstacle) ∧
      ∀ stream stream', (ofInfix text).map write = .ok stream →
        (ofInfix resolved).map write = .ok stream' →
          evaluate table (read stream') = evaluate table (read stream) := by
  have haction := ofInfix_map_action haccepts hresolves
  refine ⟨?_, exists_congr fun obstacle => ?_, fun stream stream' hstream hstream' => ?_⟩
  · rw [← haccepts]
    exact accepts_eq_of_replacedBy (ofText_of_resolves haccepts hresolves)
  · rw [← map_eq_error_iff (f := action table), haction, map_eq_error_iff]
  · obtain ⟨items, hitems, rfl⟩ := map_eq_ok_iff.mp hstream
    obtain ⟨items', hitems', rfl⟩ := map_eq_ok_iff.mp hstream'
    rw [hitems, hitems'] at haction
    have hsame : action table items' = action table items := Except.ok.inj haction
    rw [read_write_of_ofInfix hitems, read_write_of_ofInfix hitems']
    exact congrArg (fun act => (act []).bind onlyValue) hsame

/-- A sum that lacks its second summand has the same defect with the value in place of the
name. The other occurrence of the name is kept. -/
theorem evaluate_eq_of_resolves_unfinished_sum :
    let table := Variables.ofList [("a".toList, 12)]
    Expression.accepts (Token.ofText "(a+)a".toList) = true ∧
      Text.Resolves table "(a+)a".toList "(12+)a".toList ∧
      evaluate table (read "12 + a".toList) = evaluate table (read "a + a".toList) := by
  intro table
  have haccepts : Expression.accepts (Token.ofText "(a+)a".toList) = true := by decide
  have hfirst : Token.ReplacedBy table ⟨.name, "a".toList⟩ ⟨.number, Numeral.write 12⟩ :=
    .resolved rfl (by decide)
  have hresolves : Text.Resolves table "(a+)a".toList "(12+)a".toList :=
    ⟨_, .cons (.kept _) (.cons hfirst (.cons (.kept _) (.cons (.kept _) (.cons (.kept _) .nil)))),
      by decide⟩
  exact ⟨haccepts, hresolves, (evaluate_eq_of_resolves haccepts hresolves).2.2 _ _ rfl rfl⟩

end Postfix

end Calculator
