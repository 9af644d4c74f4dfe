import Calculator.Proofs.Patterns
import Calculator.Proofs.SignParity
import Calculator.Proofs.Streams

/-! # The words of a text

The words of a text are its runs of letters, as far as they reach. Whatever a line is,
each name that is looked up for it is a word of it, or no name at all.
-/

namespace Calculator

namespace Text

/-- From break to break: what holds of texts without a break, and of a text with one if
it holds of what stands behind the first, holds of all texts. -/
theorem induction_on_breaks {motive : Text → Prop} (isBreak : Char → Bool)
    (unbroken : ∀ text, (∀ c ∈ text, isBreak c = false) → motive text)
    (broken : ∀ before c after, (∀ d ∈ before, isBreak d = false) → isBreak c = true →
      motive after → motive (before ++ c :: after)) (text : Text) : motive text := by
  induction hlength : text.length using Nat.strong_induction_on generalizing text with
  | _ length ih =>
      cases hfirst : text.find? isBreak with
      | none => exact unbroken text (by simpa using hfirst)
      | some c =>
          obtain ⟨hc, before, after, rfl, hbefore⟩ := List.find?_eq_some_iff_append.mp hfirst
          have hshorter : after.length < length := by
            rw [← hlength, List.length_append, List.length_cons]
            omega
          exact broken before c after (by simpa using hbefore) hc (ih _ hshorter after rfl)

/-- The words of a text: what is left between the characters that are no letters. -/
def words (text : Text) : List Text :=
  (text.splitOnP fun c => !c.isAlpha).filter fun word => !word.isEmpty

/-- Any character but a letter separates the words around it. -/
theorem words_append_cons {c : Char} (hc : c.isAlpha = false) (before after : Text) :
    words (before ++ c :: after) = words before ++ words after :=
  Postfix.filter_splitOnP_append_cons (by simpa using hc) before after

theorem words_cons {c : Char} (hc : c.isAlpha = false) (rest : Text) :
    words (c :: rest) = words rest :=
  words_append_cons hc [] rest

theorem words_letters {text : Text} (htext : text ∈ Pattern.letters.matches') :
    words text = [text] := by
  obtain ⟨hne, hletters⟩ := Pattern.mem_letters_iff.mp htext
  rw [words, List.splitOnP_eq_singleton fun c hc => by simp [hletters c hc]]
  simp [hne]

/-- The runs of a text: what is left between the characters that are neither letters nor
digits. -/
def runs (text : Text) : List Text :=
  (text.splitOnP fun c => !c.isAlphanum).filter fun run => !run.isEmpty

/-- Any character but a letter or a digit separates the runs around it. -/
theorem runs_append_cons {c : Char} (hc : c.isAlphanum = false) (before after : Text) :
    runs (before ++ c :: after) = runs before ++ runs after :=
  Postfix.filter_splitOnP_append_cons (by simpa using hc) before after

theorem runs_eq_of_forall_isAlphanum {text : Text} (hrun : ∀ c ∈ text, c.isAlphanum = true) :
    runs text = [text].filter fun run => !run.isEmpty := by
  rw [runs, List.splitOnP_eq_singleton fun c hc => by simp [hrun c hc]]

end Text

open Text

namespace Signs

theorem isAlpha_eq_false_of_isSign {c : Char} (hc : isSign c = true) : c.isAlpha = false := by
  rcases eq_or_eq_of_isSign hc with rfl | rfl <;> rfl

/-- A sign adds no letter, whether or not another one takes it in. -/
theorem words_append_absorb {c : Char} (hc : isSign c = true) (before text : Text) :
    words (before ++ absorb c text) = words before ++ words text := by
  cases text with
  | nil => exact words_append_cons (isAlpha_eq_false_of_isSign hc) before []
  | cons d rest =>
      by_cases hd : isSign d = true
      · rw [absorb, hc, hd, Bool.and_self, if_pos rfl,
          words_append_cons (isAlpha_eq_false_of_isSign (isSign_combine c d)),
          words_cons (isAlpha_eq_false_of_isSign hd)]
      · rw [absorb, Bool.eq_false_of_not_eq_true hd, Bool.and_false, if_neg Bool.false_ne_true,
          words_append_cons (isAlpha_eq_false_of_isSign hc)]

/-- Settling the signs of a text leaves its words as they are. -/
theorem words_settle (text : Text) : words (settle text) = words text := by
  -- from sign to sign, because letters may stand on both sides of each
  induction text using induction_on_breaks isSign with
  | unbroken text hnone => rw [← text.append_nil, settle_append hnone, settle, List.foldr_nil]
  | broken before sign after hbefore hsign ih =>
      rw [settle_append hbefore, settle_cons, words_append_absorb hsign, ih,
        words_append_cons (isAlpha_eq_false_of_isSign hsign)]

theorem words_normalize (text : Text) : words (normalize text) = words text := by
  rw [normalize_eq_settle, words_settle]

end Signs

namespace Postfix

/-- The operands in front of a break are the run that stands there. -/
theorem filterMap_operand?_ofText_append {run rest : Text}
    (hrun : ∀ c ∈ run, c.isAlphanum = true) (hrest : Lexeme.beginsOperand rest = false) :
    (Lexeme.ofText (run ++ rest)).filterMap Lexeme.operand? =
      runs run ++ (Lexeme.ofText rest).filterMap Lexeme.operand? := by
  rw [runs_eq_of_forall_isAlphanum hrun]
  by_cases hne : run = []
  · rw [hne]
    rfl
  · rw [Lexeme.ofText_run_append hne hrun hrest, Lexeme.filterMap_operand?_cons,
      List.filter_cons_of_pos (by simpa using hne)]
    rfl

/-- The operands of a text are its runs. -/
theorem filterMap_operand?_ofText (text : Text) :
    (Lexeme.ofText text).filterMap Lexeme.operand? = runs text := by
  induction text using induction_on_breaks fun c => !c.isAlphanum with
  | unbroken text hnone =>
      have hrun : ∀ c ∈ text, c.isAlphanum = true := by simpa using hnone
      have hrest : Lexeme.beginsOperand [] = false := rfl
      have hoperands := filterMap_operand?_ofText_append hrun hrest
      rw [List.append_nil] at hoperands
      exact hoperands.trans (List.append_nil (runs text))
  | broken before symbol after hbefore hsymbol ih =>
      have hbefore : ∀ c ∈ before, c.isAlphanum = true := by simpa using hbefore
      have hsymbol : symbol.isAlphanum = false := by simpa using hsymbol
      have hrest : Lexeme.beginsOperand (symbol :: after) = false := hsymbol
      rw [filterMap_operand?_ofText_append hbefore hrest, Lexeme.ofText_symbol_cons hsymbol,
        List.filterMap_cons_none (Lexeme.operand?_ofSymbol symbol), ih, runs_append_cons hsymbol]

/-- An operand of letters is a word of the text. -/
theorem mem_words_of_mem_operands {text run : Text}
    (hrun : run ∈ (Lexeme.ofText text).filterMap Lexeme.operand?)
    (hletters : run ∈ Pattern.letters.matches') : run ∈ words text := by
  rw [filterMap_operand?_ofText] at hrun
  induction text using induction_on_breaks fun c => !c.isAlphanum with
  | unbroken text hnone =>
      rw [runs_eq_of_forall_isAlphanum (by simpa using hnone)] at hrun
      obtain rfl : run = text := List.mem_singleton.mp (List.mem_of_mem_filter hrun)
      rw [words_letters hletters]
      exact List.mem_singleton_self run
  | broken before symbol after hbefore hsymbol ih =>
      have hsymbol : symbol.isAlphanum = false := by simpa using hsymbol
      have hletter : symbol.isAlpha = false := ((Bool.or_eq_false_iff).mp hsymbol).1
      rw [runs_append_cons hsymbol, List.mem_append,
        runs_eq_of_forall_isAlphanum (by simpa using hbefore)] at hrun
      rw [words_append_cons hletter, List.mem_append]
      rcases hrun with hfirst | hrest
      · obtain rfl : run = before := List.mem_singleton.mp (List.mem_of_mem_filter hfirst)
        rw [words_letters hletters]
        exact Or.inl (List.mem_singleton_self run)
      · exact Or.inr (ih hrest)

end Postfix

end Calculator
