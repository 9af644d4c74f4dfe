import Calculator.Proofs.Bindings
import Calculator.Proofs.Words

/-! # Tables that agree on the names in use

All that a line looks up are words of it, so names that a line does not mention have
no part in its answer. Over a run, tables that agree on the words of the lines give
the same outcomes and go on agreeing.
-/

namespace Calculator

open Pattern

/-- Tables whose names consist of letters, and which agree on some names. -/
structure Variables.Alike (names : List Text) (first second : Variables) : Prop where
  letters_first : ∀ name, first.contains name = true → name ∈ letters.matches'
  letters_second : ∀ name, second.contains name = true → name ∈ letters.matches'
  get?_eq : ∀ name ∈ names, first.get? name = second.get? name

theorem Variables.get?_eq_none {table : Variables} {name : Text}
    (hletters : ∀ name, table.contains name = true → name ∈ letters.matches')
    (hname : name ∉ letters.matches') : table.get? name = none := by
  rw [← Option.not_isSome_iff_eq_none]
  exact fun hbound => hname (hletters name hbound)

theorem Variables.letters_of_contains_bind {table : Variables} {target : Text}
    (hletters : ∀ name, table.contains name = true → name ∈ letters.matches')
    (htarget : target ∈ letters.matches') (value : Int) :
    ∀ name, (table.bind target value).contains name = true → name ∈ letters.matches' := by
  intro name hbound
  rw [contains, get?_bind] at hbound
  split at hbound
  next heq => rwa [heq]
  next => exact hletters name hbound

variable {names : List Text} {first second table : Variables} {text line name : Text} {value : Int}

namespace Variables.Alike

/-- What is no name has no value in either table. -/
theorem get?_eq_of_letters (h : Alike names first second)
    (hname : name ∈ letters.matches' → name ∈ names) : first.get? name = second.get? name := by
  by_cases hletters : name ∈ letters.matches'
  · exact h.get?_eq name (hname hletters)
  · rw [get?_eq_none h.letters_first hletters, get?_eq_none h.letters_second hletters]

theorem mono {fewer : List Text} (h : Alike names first second) (hfewer : fewer ⊆ names) :
    Alike fewer first second :=
  ⟨h.letters_first, h.letters_second, fun name hname => h.get?_eq name (hfewer hname)⟩

theorem symm (h : Alike names first second) : Alike names second first :=
  ⟨h.letters_second, h.letters_first, fun name hname => (h.get?_eq name hname).symm⟩

end Variables.Alike

open Variables

/-- A classification looks up the text as a whole. -/
theorem Statement.classify_congr (hget : first.get? text = second.get? text) :
    classify first text = classify second text := by
  simp only [classify, ofCalculation, ofOperand, Operand.resolve, hget]

/-- An evaluation looks up operands. -/
theorem Postfix.run_congr {items : List Item} {stack : List Int}
    (hget : ∀ name, .operand name ∈ items → first.get? name = second.get? name) :
    run first stack items = run second stack items := by
  induction items generalizing stack with
  | nil => rfl
  | cons item rest ih =>
      have hstep : step first stack item = step second stack item := by
        cases item with
        | operand name => rw [step, step, operandValue, operandValue, hget name List.mem_cons_self]
        | operation operation => rfl
      rw [run_cons, run_cons, hstep]
      cases step second stack item with
      | error fault => rfl
      | ok next => exact ih fun name hname => hget name (List.mem_cons_of_mem item hname)

namespace Session

open Postfix

theorem outcomeOfExpression_congr (h : Alike text.words first second) :
    outcomeOfExpression first text = outcomeOfExpression second text := by
  unfold outcomeOfExpression
  cases hconverted : ofInfix text with
  | error obstacle => rfl
  | ok items =>
      have hget : ∀ name, .operand name ∈ items → first.get? name = second.get? name := by
        intro name hname
        apply h.get?_eq_of_letters
        apply mem_words_of_mem_operands
        rw [← filterMap_operand?_convert hconverted]
        exact List.mem_filterMap.mpr ⟨_, hname, rfl⟩
      simp only [evaluate, run_congr hget]

/-- An assignment looks up its source. -/
theorem map_outcome_assign_congr {target source : Text} (htarget : '=' ∉ target)
    (hget : first.get? source = second.get? source) :
    (assign first (target ++ '=' :: source)).map Reply.outcome =
      (assign second (target ++ '=' :: source)).map Reply.outcome := by
  simp only [assign, Assignment.perform, Assignment.split?_append_equals_cons source htarget,
    Assignment.sourceValue?, hget]
  cases (Numeral.read? source).orElse fun _ => second.get? source <;> rfl

theorem source_mem_words {target source : Text} (hsource : source ∈ letters.matches') :
    source ∈ Text.words (target ++ '=' :: source) := by
  rw [Text.words_append_cons rfl, Text.words_letters hsource]
  exact List.mem_append_right _ (List.mem_singleton_self source)

theorem map_outcome_answer_congr (h : Alike text.words first second) {statement : Statement}
    (hclassify : Statement.classify first text = .ok statement) :
    (answer first text statement).map Reply.outcome =
      (answer second text statement).map Reply.outcome := by
  cases statement with
  | assignment =>
      obtain ⟨target, source, rfl, htarget, _⟩ :=
        Statement.classify_eq_assignment_iff.mp hclassify
      apply map_outcome_assign_congr (Assignment.equals_not_mem_of_mem_letters htarget)
      exact h.get?_eq_of_letters source_mem_words
  | expression =>
      rw [answer, answer, map_outcome_calculate, map_outcome_calculate]
      exact outcomeOfExpression_congr h
  | refused | exit | help | operand => rfl

/-- A line has the same outcome for tables that agree on its words. -/
theorem map_outcome_process_congr (h : Alike line.squeeze.words first second) :
    (process first line).map Reply.outcome = (process second line).map Reply.outcome := by
  rw [← Signs.words_normalize] at h
  by_cases hline : line.squeeze = []
  · simp [process, hline, Except.map, Reply.keep]
  · have hget := h.get?_eq_of_letters fun hletters => by
      rw [Text.words_letters hletters]
      exact List.mem_singleton_self _
    obtain ⟨statement, hclassify⟩ :=
      Statement.exists_classify first (Signs.normalize line.squeeze)
    rw [map_outcome_process first hline, map_outcome_process second hline,
      ← Statement.classify_congr hget, hclassify]
    exact map_outcome_answer_congr h hclassify

open Assignment

/-- A line assigns the same for tables that agree on its words. -/
theorem assigns_of_alike (h : Alike text.words first second)
    (hassigns : Assigns first text name value) : Assigns second text name value := by
  obtain ⟨source, rfl, htarget, hsupplies⟩ := hassigns
  refine ⟨source, rfl, htarget, ?_⟩
  rcases hsupplies with hliteral | ⟨hletters, hbound⟩
  · exact Or.inl hliteral
  · rw [h.get?_eq source (source_mem_words hletters)] at hbound
    exact Or.inr ⟨hletters, hbound⟩

theorem mem_words_of_assigns (hassigns : Assigns table text name value) : name ∈ text.words := by
  obtain ⟨source, rfl, htarget, _⟩ := hassigns
  rw [Text.words_append_cons rfl, Text.words_letters htarget]
  exact List.mem_append_left _ (List.mem_singleton_self name)

variable {reply other : Reply} {lines : List Text}

/-- A line leaves every name that is no word of it as it was. -/
theorem get?_table_of_not_mem_words (hreply : process table line = .ok reply)
    (hname : name ∉ line.squeeze.words) : reply.table.get? name = table.get? name := by
  have hnone value : ¬ Assigns table (Signs.normalize line.squeeze) name value := by
    intro hassigns
    rw [← Signs.words_normalize] at hname
    exact hname (mem_words_of_assigns hassigns)
  ext value
  simp [get?_table_iff hreply, hnone]

theorem letters_of_contains_table (hreply : process table line = .ok reply)
    (hletters : ∀ name, table.contains name = true → name ∈ letters.matches') :
    ∀ name, reply.table.contains name = true → name ∈ letters.matches' := by
  intro name hbound
  obtain ⟨value, hvalue⟩ := Option.isSome_iff_exists.mp hbound
  rcases (get?_table_iff hreply name value).mp hvalue with hassigns | ⟨hbefore, _⟩
  · obtain ⟨_, _, htarget, _⟩ := hassigns
    exact htarget
  · exact hletters name (Option.isSome_iff_exists.mpr ⟨value, hbefore⟩)

/-- After a line the tables agree on what they agreed on, and on what it assigns. -/
theorem alike_tables (h : Alike names first second) (hwords : line.squeeze.words ⊆ names)
    (hreply : process first line = .ok reply) (hother : process second line = .ok other) :
    Alike names reply.table other.table := by
  refine ⟨letters_of_contains_table hreply h.letters_first,
    letters_of_contains_table hother h.letters_second, fun name hname => ?_⟩
  have hline : Alike (Signs.normalize line.squeeze).words first second := by
    rw [Signs.words_normalize]
    exact h.mono hwords
  have hassigns value : Assigns first (Signs.normalize line.squeeze) name value ↔
      Assigns second (Signs.normalize line.squeeze) name value :=
    ⟨assigns_of_alike hline, assigns_of_alike hline.symm⟩
  ext value
  simp only [get?_table_iff hreply, get?_table_iff hother, hassigns, h.get?_eq name hname]

/-- Answering lines gives the same outcomes for tables that agree on their words, and
leaves tables that agree on them still. -/
theorem exists_replies_alike (h : Alike names first second)
    (hwords : ∀ line ∈ lines, line.squeeze.words ⊆ names) :
    ∃ answers others final last, replies first lines = .ok answers ∧
      replies second lines = .ok others ∧
      answers.map Reply.outcome = others.map Reply.outcome ∧
      tableAfter first lines = .ok final ∧ tableAfter second lines = .ok last ∧
      Alike names final last := by
  induction lines generalizing first second with
  | nil => exact ⟨[], [], first, second, rfl, rfl, rfl, rfl, rfl, h⟩
  | cons line rest ih =>
      obtain ⟨hline, hrest⟩ := List.forall_mem_cons.mp hwords
      obtain ⟨reply, hreply, _⟩ := exists_process first line
      obtain ⟨other, hother, _⟩ := exists_process second line
      have houtcome := map_outcome_process_congr (h.mono hline)
      rw [hreply, hother] at houtcome
      obtain ⟨answers, others, final, last, hanswers, hothers, hsame, hfinal, hlast, halike⟩ :=
        ih (alike_tables h hline hreply hother) hrest
      refine ⟨reply :: answers, other :: others, final, last, replies_cons hreply hanswers,
        replies_cons hother hothers, ?_, ?_, ?_, halike⟩
      · rw [List.map_cons, List.map_cons, hsame, Except.ok.inj houtcome]
      · rw [tableAfter_cons, hreply]
        exact hfinal
      · rw [tableAfter_cons, hother]
        exact hlast

/-- A run leaves every name that is no word of its lines as it was. -/
theorem get?_tableAfter_of_not_mem_words {final : Variables}
    (hrun : tableAfter table lines = .ok final)
    (hname : ∀ line ∈ lines, name ∉ line.squeeze.words) : final.get? name = table.get? name := by
  induction lines generalizing table with
  | nil =>
      cases hrun
      rfl
  | cons line rest ih =>
      obtain ⟨hline, hrest⟩ := List.forall_mem_cons.mp hname
      rw [tableAfter_cons] at hrun
      obtain ⟨reply, hreply, hafter⟩ := bind_eq_ok_iff.mp hrun
      rw [ih hafter hrest, get?_table_of_not_mem_words hreply hline]

/-- Names that no line mentions have no part in a run. Two tables of names may differ
as they like on all but the words of the lines: the outcomes of the lines are the
same, the tables agree on those words in the end, and every other name has in each of
them the value that it had at first. -/
theorem outcomes_eq_of_agree_on_words (lines : List Text) {first second : Variables}
    (hfirst : ∀ name, first.contains name = true → name ∈ letters.matches')
    (hsecond : ∀ name, second.contains name = true → name ∈ letters.matches')
    (hagree : ∀ line ∈ lines, ∀ name ∈ line.squeeze.words, first.get? name = second.get? name) :
    ∃ answers others final last, replies first lines = .ok answers ∧
      replies second lines = .ok others ∧
      answers.map Reply.outcome = others.map Reply.outcome ∧
      tableAfter first lines = .ok final ∧ tableAfter second lines = .ok last ∧
      (∀ line ∈ lines, ∀ name ∈ line.squeeze.words, final.get? name = last.get? name) ∧
      ∀ name, (∀ line ∈ lines, name ∉ line.squeeze.words) →
        final.get? name = first.get? name ∧ last.get? name = second.get? name := by
  let names := lines.flatMap fun line => line.squeeze.words
  have hwords : ∀ line ∈ lines, line.squeeze.words ⊆ names :=
    fun line hline name hname => List.mem_flatMap.mpr ⟨line, hline, hname⟩
  have halike : Alike names first second := by
    refine ⟨hfirst, hsecond, fun name hname => ?_⟩
    obtain ⟨line, hline, hname⟩ := List.mem_flatMap.mp hname
    exact hagree line hline name hname
  obtain ⟨answers, others, final, last, hanswers, hothers, hsame, hfinal, hlast, hafter⟩ :=
    exists_replies_alike halike hwords
  refine ⟨answers, others, final, last, hanswers, hothers, hsame, hfinal, hlast, ?_, ?_⟩
  · exact fun line hline name hname => hafter.get?_eq name (hwords line hline hname)
  · intro name hname
    exact ⟨get?_tableAfter_of_not_mem_words hfinal hname,
      get?_tableAfter_of_not_mem_words hlast hname⟩

/-- One of the tables has a further name, and a name in both has different values. The
lines assign, calculate and meet an unbound name. -/
theorem outcomes_eq_beside_unused_names :
    ∃ answers others final last,
      replies (.bind (.bind .empty ['y'] 7) ['w'] 1)
        ["x = y".toList, "(x + y)/2*x".toList, "z--1".toList] = .ok answers ∧
      replies (.bind (.bind (.bind .empty ['y'] 7) ['w'] (-5)) ['v'] 9)
        ["x = y".toList, "(x + y)/2*x".toList, "z--1".toList] = .ok others ∧
      answers.map Reply.outcome = others.map Reply.outcome ∧
      tableAfter (.bind (.bind .empty ['y'] 7) ['w'] 1)
        ["x = y".toList, "(x + y)/2*x".toList, "z--1".toList] = .ok final ∧
      tableAfter (.bind (.bind (.bind .empty ['y'] 7) ['w'] (-5)) ['v'] 9)
        ["x = y".toList, "(x + y)/2*x".toList, "z--1".toList] = .ok last ∧
      final.get? ['x'] = last.get? ['x'] ∧ final.get? ['w'] = some 1 ∧
      last.get? ['w'] = some (-5) := by
  have hletter (c : Char) (hc : c.isAlpha = true) : [c] ∈ letters.matches' :=
    mem_letters_iff.mpr ⟨List.cons_ne_nil c [], List.forall_mem_singleton.mpr hc⟩
  have hempty : ∀ name, Variables.empty.contains name = true → name ∈ letters.matches' := nofun
  have hy := letters_of_contains_bind hempty (hletter 'y' rfl) 7
  obtain ⟨answers, others, final, last, hanswers, hothers, hsame, hfinal, hlast, hwords, hrest⟩ :=
    outcomes_eq_of_agree_on_words ["x = y".toList, "(x + y)/2*x".toList, "z--1".toList]
      (letters_of_contains_bind hy (hletter 'w' rfl) 1)
      (letters_of_contains_bind (letters_of_contains_bind hy (hletter 'w' rfl) (-5))
        (hletter 'v' rfl) 9)
      (by decide +kernel)
  have hw := hrest ['w'] (by decide +kernel)
  refine ⟨answers, others, final, last, hanswers, hothers, hsame, hfinal, hlast, ?_, ?_, ?_⟩
  · exact hwords "x = y".toList List.mem_cons_self ['x'] (by decide +kernel)
  · rw [hw.1]
    decide
  · rw [hw.2]
    decide

end Session

end Calculator
