import Calculator.Proofs.Answers
import Calculator.Proofs.Outlines
import Calculator.Proofs.Placement
import Calculator.Proofs.Precedence

/-! # Which texts with a value are derivable

A text with a value is derived from the grammar of sums, products and factors,
unless a closing parenthesis stands directly behind an opening one or behind an
operator. The form of expressions lets such parentheses pass, and the conversion
only looks at whether they balance.
-/

namespace Calculator

namespace Postfix

namespace Lexeme

def text : Lexeme → Text
  | .operand text => text
  | .opening => ['(']
  | .closing => [')']
  | .operator found => [found.symbol]
  | .foreign c => [c]

theorem text_ofSymbol (c : Char) : (ofSymbol c).text = [c] := by
  unfold ofSymbol
  split
  next h => rw [h, text]
  next =>
    split
    next h => rw [h, text]
    next =>
      cases hsymbol : Operator.ofSymbol? c with
      | none => rfl
      | some found => rw [Operator.eq_symbol_of_ofSymbol? hsymbol]; rfl

theorem flatMap_text_attach (c : Char) (lexemes : List Lexeme) :
    (attach c lexemes).flatMap text = c :: lexemes.flatMap text := by
  rw [attach]
  split
  next =>
    rw [attachToOperand.eq_def]
    split <;> rfl
  next => rw [List.flatMap_cons, text_ofSymbol, List.singleton_append]

theorem flatMap_text_ofText (source : Text) : (ofText source).flatMap text = source := by
  induction source with
  | nil => rfl
  | cons c rest ih => rw [ofText_cons, flatMap_text_attach, ih]

end Lexeme

end Postfix

open Postfix

namespace Infix

theorem ofText_text {level : Nat} (d : Infix level) :
    Lexeme.ofText d.text = d.lexemes := by
  have hlexemes : Lexeme.ofText (d.text ++ []) = d.lexemes ++ Lexeme.ofText [] :=
    d.ofText_text_append rfl
  rw [List.append_nil] at hlexemes
  exact hlexemes.trans (List.append_nil d.lexemes)

/-- Lexemes that are derived come from a text that is derived. -/
theorem text_eq_of_lexemes_eq {level : Nat} {d : Infix level} {text : Text}
    (hlexemes : d.lexemes = Lexeme.ofText text) : d.text = text := by
  rw [← Lexeme.flatMap_text_ofText d.text, d.ofText_text, hlexemes, Lexeme.flatMap_text_ofText]

/-- Lexemes that end a product which any other product may replace in a sum. -/
def EndsProduct (read : List Lexeme) : Prop :=
  ∃ front, ∃ product : Infix 2, read = front ++ product.lexemes ∧
    ∀ other : Infix 2, ∃ sum : Infix 1, sum.lexemes = front ++ other.lexemes

/-- Lexemes that await a factor, with the signs of the factor already read. -/
def AwaitsFactor (read : List Lexeme) : Prop :=
  ∃ front, ∃ signs : List Sign, read = front ++ signs.map (fun sign => .operator sign.operator) ∧
    ∀ factor : Infix 3, EndsProduct (front ++ factor.lexemes)

theorem EndsProduct.exists_lexemes_eq {read : List Lexeme} (h : EndsProduct read) :
    ∃ sum : Infix 1, sum.lexemes = read := by
  obtain ⟨front, product, rfl, hsum⟩ := h
  exact hsum product

theorem awaitsFactor_nil : AwaitsFactor [] :=
  ⟨[], [], rfl, fun factor => ⟨[], .loosen factor, rfl, fun other => ⟨.loosen other, rfl⟩⟩⟩

theorem AwaitsFactor.sign {read : List Lexeme} (h : AwaitsFactor read) (sign : Sign) :
    AwaitsFactor (read ++ [.operator sign.operator]) := by
  obtain ⟨front, signs, rfl, hfactor⟩ := h
  exact ⟨front, signs ++ [sign], by simp, hfactor⟩

theorem AwaitsFactor.operand {read : List Lexeme} (h : AwaitsFactor read) (atom : Atom) :
    EndsProduct (read ++ [.operand atom.text]) := by
  obtain ⟨front, signs, rfl, hfactor⟩ := h
  rw [List.append_assoc]
  exact hfactor (.operand signs atom)

theorem AwaitsFactor.group {read inner : List Lexeme} (h : AwaitsFactor read)
    (hinner : EndsProduct inner) : EndsProduct (read ++ .opening :: (inner ++ [.closing])) := by
  obtain ⟨front, signs, rfl, hfactor⟩ := h
  obtain ⟨body, rfl⟩ := hinner.exists_lexemes_eq
  rw [List.append_assoc]
  exact hfactor (.group signs body)

/-- A plus or a minus ends the product, a star or a slash goes on with it. -/
theorem EndsProduct.operator {read : List Lexeme} (h : EndsProduct read) (operator : Operator) :
    AwaitsFactor (read ++ [.operator operator]) := by
  refine ⟨read ++ [.operator operator], [], (List.append_nil _).symm, fun factor => ?_⟩
  obtain ⟨sum, hsum⟩ := h.exists_lexemes_eq
  obtain ⟨front, product, rfl, hfront⟩ := h
  cases operator with
  | plus =>
      refine ⟨_, .loosen factor, rfl, fun other => ⟨.join .plus sum other, ?_⟩⟩
      change sum.lexemes ++ .operator .plus :: other.lexemes = _
      rw [hsum, List.append_assoc _ [_], List.singleton_append]
  | minus =>
      refine ⟨_, .loosen factor, rfl, fun other => ⟨.join .minus sum other, ?_⟩⟩
      change sum.lexemes ++ .operator .minus :: other.lexemes = _
      rw [hsum, List.append_assoc _ [_], List.singleton_append]
  | times =>
      refine ⟨front, .join .times product factor, ?_, hfront⟩
      change _ = front ++ (product.lexemes ++ .operator .times :: factor.lexemes)
      simp only [List.append_assoc, List.singleton_append]
  | divide =>
      refine ⟨front, .join .divide product factor, ?_, hfront⟩
      change _ = front ++ (product.lexemes ++ .operator .divide :: factor.lexemes)
      simp only [List.append_assoc, List.singleton_append]

/-- Lexemes of the levels around, each up to its opening parenthesis. -/
def around : List (List Lexeme) → List Lexeme
  | [] => []
  | front :: fronts => around fronts ++ front ++ [.opening]

/-- What a stage says of the lexemes read on its level. -/
def Stands (read : List Lexeme) (stage : Stage) : Prop :=
  if stage = .operand then EndsProduct read else AwaitsFactor read

/-- Whether a closing parenthesis may stand behind a lexeme. -/
def Fits (first second : Lexeme) : Prop :=
  second = .closing → first ≠ .opening ∧ ∀ operator, first ≠ .operator operator

theorem exists_convert_of_operator {waiting : List Operation} {outer : List (List Operation)}
    {prefixed : Bool} {operator : Operator} {rest : List Lexeme} {items : List Item}
    (hconvert : convert waiting outer prefixed (.operator operator :: rest) = .ok items) :
    ∃ waiting items, convert waiting outer true rest = .ok items := by
  rw [convert] at hconvert
  split at hconvert
  next => exact ⟨_, _, hconvert⟩
  next =>
    obtain ⟨found, hfound, _⟩ := map_eq_ok_iff.mp hconvert
    exact ⟨_, _, hfound⟩

/-- Lexemes that complete an outline complete a derivation, if their parentheses
balance and none closes directly behind an opening one or an operator. -/
theorem exists_lexemes_eq_of_completedBy {stage : Stage} {rest : List Lexeme}
    (h : stage.CompletedBy rest) {waiting : List Operation} {outer : List (List Operation)}
    {prefixed : Bool} {items : List Item}
    (hconvert : convert waiting outer prefixed rest = .ok items)
    (hfits : rest.IsChain Fits) (hhead : stage ≠ .operand → rest.head? ≠ some .closing)
    {fronts : List (List Lexeme)} (hfronts : ∀ front ∈ fronts, AwaitsFactor front)
    (hlength : fronts.length = outer.length) {read : List Lexeme} (hread : Stands read stage) :
    ∃ d : Infix 1, d.lexemes = around fronts ++ read ++ rest := by
  -- `Stands` is kept on every level: a parenthesis opens one with nothing read, and closes
  -- it into the factor that the level around awaits
  induction h generalizing waiting outer prefixed items fronts read with
  | done =>
      cases outer with
      | nil =>
          obtain ⟨d, hd⟩ := EndsProduct.exists_lexemes_eq hread
          rw [List.eq_nil_of_length_eq_zero hlength]
          exact ⟨d, by simp [around, hd]⟩
      | cons => cases hconvert
  | @opening stage _ hstage _ ih =>
      obtain ⟨hnext, hrest⟩ := List.isChain_cons.mp hfits
      rw [Stands, if_neg hstage] at hread
      have hnil : Stands [] stage := by
        rw [Stands, if_neg hstage]
        exact awaitsFactor_nil
      obtain ⟨d, hd⟩ := ih hconvert hrest
        (fun _ hclosing => (hnext .closing hclosing rfl).1 rfl)
        (List.forall_mem_cons.mpr ⟨hread, hfronts⟩) (congrArg Nat.succ hlength) hnil
      exact ⟨d, by simp [hd, around]⟩
  | sign hstage sign _ ih =>
      obtain ⟨hnext, hrest⟩ := List.isChain_cons.mp hfits
      rw [Stands, if_neg hstage] at hread
      obtain ⟨_, _, hafter⟩ := exists_convert_of_operator hconvert
      obtain ⟨d, hd⟩ := ih hafter hrest
        (fun _ hclosing => (hnext .closing hclosing rfl).2 _ rfl) hfronts hlength
        (by rw [Stands, if_neg hstage]; exact hread.sign sign)
      exact ⟨d, by simp [hd]⟩
  | operand hstage atom _ ih =>
      obtain ⟨_, hrest⟩ := List.isChain_cons.mp hfits
      rw [Stands, if_neg hstage] at hread
      obtain ⟨found, hfound, _⟩ := map_eq_ok_iff.mp hconvert
      obtain ⟨d, hd⟩ := ih hfound hrest (absurd rfl) hfronts hlength (hread.operand atom)
      exact ⟨d, by simp [hd]⟩
  | @closing stage _ _ _ ih =>
      obtain ⟨_, hrest⟩ := List.isChain_cons.mp hfits
      have hstage : stage = .operand := by
        by_contra hstage
        exact hhead hstage rfl
      cases outer with
      | nil => cases hconvert
      | cons enclosing outer =>
          cases fronts with
          | nil => cases hlength
          | cons front fronts =>
              obtain ⟨hfront, hfronts⟩ := List.forall_mem_cons.mp hfronts
              obtain ⟨found, hfound, _⟩ := map_eq_ok_iff.mp hconvert
              subst hstage
              obtain ⟨d, hd⟩ := ih hfound hrest (absurd rfl) hfronts (Nat.succ.inj hlength)
                (hfront.group hread)
              exact ⟨d, by simp [hd, around]⟩
  | operator operator _ ih =>
      obtain ⟨hnext, hrest⟩ := List.isChain_cons.mp hfits
      obtain ⟨_, _, hafter⟩ := exists_convert_of_operator hconvert
      obtain ⟨d, hd⟩ := ih hafter hrest
        (fun _ hclosing => (hnext .closing hclosing rfl).2 _ rfl) hfronts hlength
        (EndsProduct.operator hread operator)
      exact ⟨d, by simp [hd]⟩
  | foreign c => cases hconvert

theorem oneSigned_of_settled {level : Nat} {d : Infix level}
    (hsettled : Signs.Settled d.text) : d.OneSigned := by
  have hsigns {signs : List Sign} {rest : Text}
      (hsettled : Signs.Settled (signs.map Sign.symbol ++ rest)) : signs.length ≤ 1 := by
    match signs with
    | [] => exact Nat.zero_le 1
    | [_] => exact Nat.le_refl 1
    | first :: second :: _ =>
      have hneighbours := (List.isChain_cons_cons.mp hsettled).1
      exact absurd ⟨first.isSign_symbol, second.isSign_symbol⟩ hneighbours
  induction d with
  | operand signs atom => exact hsigns hsettled
  | group signs body ih =>
      have hinner : Signs.Settled (body.text ++ [')']) := hsettled.right_of_append.tail
      exact ⟨hsigns hsettled, ih hinner.left_of_append⟩
  | loosen inner ih => exact ih hsettled
  | join connective left right ihleft ihright =>
      exact ⟨ihleft hsettled.left_of_append, ihright hsettled.right_of_append.tail⟩

end Infix

theorem isChain_fits_ofText {text : Text} (hplaced : ¬ Misplaced text) :
    (Lexeme.ofText text).IsChain Infix.Fits := by
  rw [List.isChain_iff_forall_rel_of_append_cons_cons]
  intro first second before after hlexemes hclosing
  have htext := Lexeme.flatMap_text_ofText text
  rw [hlexemes, hclosing, List.flatMap_append, List.flatMap_cons, List.flatMap_cons] at htext
  constructor
  · rintro rfl
    exact hplaced ⟨_, '(', _, htext.symm, List.mem_cons_self⟩
  · rintro operator rfl
    exact hplaced ⟨_, operator.symbol, _, htext.symm, leads_symbol operator⟩

/-- An expression with a postfix form is derivable if no parenthesis in it is misplaced. -/
theorem exists_text_eq_of_ofInfix {table : Variables} {text : Text} {items : List Item}
    (hclassify : Statement.classify table text = .ok .expression)
    (hconverted : ofInfix text = .ok items) (hplaced : ¬ Misplaced text) :
    ∃ d : Infix 1, d.text = text := by
  have hcompleted := Statement.completedBy_of_classify hclassify
  have hfits := isChain_fits_ofText hplaced
  have hhead : (Lexeme.ofText text).head? ≠ some .closing := by
    intro hhead
    obtain ⟨rest, hrest⟩ := List.head?_eq_some_iff.mp hhead
    rw [hrest] at hcompleted
    cases hcompleted with
    | closing hstage => exact hstage rfl
  have hfronts : ∀ front ∈ ([] : List (List Lexeme)), Infix.AwaitsFactor front :=
    List.forall_mem_nil _
  obtain ⟨d, hd⟩ := Infix.exists_lexemes_eq_of_completedBy hcompleted hconverted hfits
    (fun _ => hhead) hfronts rfl Infix.awaitsFactor_nil
  exact ⟨d, Infix.text_eq_of_lexemes_eq hd⟩

namespace Session

/-- A line with a calculated value shows the canonical text of a number. The text of
the line, without blanks and redundant signs, derives from the grammar exactly if no
parenthesis closes directly behind an opening one or behind an operator. Each
derivation has one sign at most in front of a factor, and it denotes the number that
is shown. -/
theorem derivable_iff_of_status_eq_ok {table : Variables} {line : Text} {reply : Reply}
    (hreply : process table line = .ok reply) (hstatus : reply.outcome.status = .ok) :
    ∃ value shown, Numeral.Canonical shown ∧ Numeral.Spells shown value ∧
      reply.outcome = ⟨.ok, some shown, false⟩ ∧
      ((∃ d : Infix 1, d.text = Signs.normalize line.squeeze) ↔
        ¬ Misplaced (Signs.normalize line.squeeze)) ∧
      ∀ d : Infix 1, d.text = Signs.normalize line.squeeze →
        d.OneSigned ∧ d.value table = .ok value := by
  have hclassify := classify_of_calculated hreply (Or.inl hstatus)
  obtain ⟨items, value, hconverted, hvalue, hnumber⟩ := exists_value_of_status_eq_ok hreply hstatus
  obtain ⟨shown, hcanonical, hspells, hshown⟩ := Outcome.exists_number_eq .ok value
  have hderivable := exists_text_eq_of_ofInfix hclassify hconverted
  refine ⟨value, shown, hcanonical, hspells, hnumber.trans hshown, ⟨?_, hderivable⟩,
    fun d hd => ⟨?_, ?_⟩⟩
  · intro hderived
    obtain ⟨d, hd⟩ := hderived
    exact hd ▸ d.not_misplaced_text
  · exact Infix.oneSigned_of_settled (hd ▸ Signs.settled_normalize _)
  · rw [← hd, d.ofInfix_text] at hconverted
    rw [← Infix.eval_tree, ← Expr.evaluate_postorder, Except.ok.inj hconverted, hvalue]

/-- Parentheses that enclose nothing are passed over behind an operator, although
no text with such parentheses is derivable. -/
theorem value_of_empty_parentheses :
    (∃ reply, process Variables.empty "1+()2".toList = .ok reply ∧
      reply.outcome = ⟨.ok, some "3".toList, false⟩) ∧
      ¬ ∃ d : Infix 1, d.text = Signs.normalize (Text.squeeze "1+()2".toList) := by
  have hshown : (process Variables.empty "1+()2".toList).map Reply.outcome =
      .ok ⟨.ok, some "3".toList, false⟩ := by
    decide +kernel
  have hplaced : Misplaced (Signs.normalize (Text.squeeze "1+()2".toList)) := by
    decide +kernel
  refine ⟨map_eq_ok_iff.mp hshown, ?_⟩
  intro hderived
  obtain ⟨d, hd⟩ := hderived
  rw [← hd] at hplaced
  exact d.not_misplaced_text hplaced

/-- A product of a negated sum in parentheses. -/
theorem derivable_negated_sum :
    ∃ reply, process (Variables.empty.bind ['a'] 4) "-(a + --2) * (3 / 2)".toList = .ok reply ∧
      reply.outcome.status = .ok ∧ reply.outcome = ⟨.ok, some "-6".toList, false⟩ ∧
        ∃ d : Infix 1, d.text = "-(a+2)*(3/2)".toList ∧ d.OneSigned ∧
          d.value (Variables.empty.bind ['a'] 4) = .ok (-6) := by
  have hshown : (process (Variables.empty.bind ['a'] 4) "-(a + --2) * (3 / 2)".toList).map
      Reply.outcome = .ok ⟨.ok, some "-6".toList, false⟩ := by
    decide +kernel
  have htext : Signs.normalize (Text.squeeze "-(a + --2) * (3 / 2)".toList) =
      "-(a+2)*(3/2)".toList := by
    decide +kernel
  have hdigits : ['6'] ∈ Pattern.digits.matches' :=
    Pattern.mem_digits_iff.mpr ⟨List.cons_ne_nil _ _, List.forall_mem_singleton.mpr rfl⟩
  obtain ⟨reply, hreply, houtcome⟩ := map_eq_ok_iff.mp hshown
  have hstatus : reply.outcome.status = .ok := by rw [houtcome]
  obtain ⟨value, shown, _, hspells, hvalue, hderivable, hdenotes⟩ :=
    derivable_iff_of_status_eq_ok hreply hstatus
  rw [htext] at hderivable hdenotes
  obtain ⟨d, hd⟩ := hderivable.mpr (by decide +kernel)
  have hsame : shown = "-6".toList :=
    Option.some.inj (congrArg Outcome.output (hvalue.symm.trans houtcome))
  have hsix : value = -6 := hspells.unique (hsame ▸ .signed .minus hdigits)
  exact ⟨reply, hreply, hstatus, houtcome, d, hd, (hdenotes d hd).1, hsix ▸ (hdenotes d hd).2⟩

end Session

end Calculator
