import Calculator.Proofs.Effects

/-! # What a session binds

Only a line that assigns changes the table, and it binds one name. Over a run
from the empty table the value of a name is therefore the one that the last line
assigning to it found.
-/

namespace Calculator.Session

open Assignment Pattern

variable {table : Variables} {line : Text} {reply : Reply} {name : Text} {value : Int}

/-- A line that assigns is answered as an assignment. -/
theorem process_of_assigns (hassigns : Assigns table (Signs.normalize line.squeeze) name value) :
    ∃ log, process table line = .ok ⟨.silent .assignment, table.bind name value, log⟩ := by
  obtain ⟨log, hassign, _⟩ := assign_of_assigns hassigns
  obtain ⟨source, htext, htarget, hsupplies⟩ := hassigns
  have hclassify : Statement.classify table (Signs.normalize line.squeeze) = .ok .assignment :=
    Statement.classify_eq_assignment_iff.mpr ⟨name, source, htext, htarget, hsupplies.mem_source⟩
  have hline : line.squeeze ≠ [] := by
    intro hnil
    rw [hnil, Signs.normalize_nil] at htext
    simp at htext
  obtain ⟨records, _, hprocess⟩ := process_eq_map_answer hline hclassify
  rw [answer, hassign] at hprocess
  exact ⟨records ++ log, hprocess⟩

/-- A line answered as an assignment is one that assigns. -/
theorem status_eq_assignment_iff (hreply : process table line = .ok reply) :
    reply.outcome.status = .assignment ↔
      ∃ name value, Assigns table (Signs.normalize line.squeeze) name value := by
  constructor
  · intro hstatus
    rcases effect_of_process hreply with rfl | heffect
    · cases hstatus
    · cases heffect with
      | bound hassigns => exact ⟨_, _, hassigns⟩
      | done hdone => rcases hdone with rfl | rfl <;> cases hstatus
      | shown _ hshown => rcases hshown with rfl | rfl <;> cases hstatus
      | refused | failed => cases hstatus
  · rintro ⟨name, value, hassigns⟩
    obtain ⟨log, hprocess⟩ := process_of_assigns hassigns
    rw [hreply] at hprocess
    rw [Except.ok.inj hprocess]
    rfl

theorem table_eq_bind (hreply : process table line = .ok reply)
    (hassigns : Assigns table (Signs.normalize line.squeeze) name value) :
    reply.table = table.bind name value := by
  obtain ⟨log, hprocess⟩ := process_of_assigns hassigns
  rw [hreply] at hprocess
  rw [Except.ok.inj hprocess]

/-- No other line changes the table. -/
theorem table_eq_self (hreply : process table line = .ok reply)
    (hstatus : reply.outcome.status ≠ .assignment) : reply.table = table := by
  rcases effect_of_process hreply with rfl | heffect
  · rfl
  · cases heffect with
    | bound => exact absurd rfl hstatus
    | done | shown | refused | failed => rfl

/-- After a line a name has the value that the line assigns to it, and otherwise the
value that it had before. -/
theorem get?_table_iff (hreply : process table line = .ok reply) (name : Text) (value : Int) :
    reply.table.get? name = some value ↔
      Assigns table (Signs.normalize line.squeeze) name value ∨
        (table.get? name = some value ∧
          ∀ other, ¬ Assigns table (Signs.normalize line.squeeze) name other) := by
  by_cases hstatus : reply.outcome.status = .assignment
  · obtain ⟨target, found, hassigns⟩ := (status_eq_assignment_iff hreply).mp hstatus
    rw [table_eq_bind hreply hassigns, Variables.get?_bind]
    by_cases hname : name = target
    · subst hname
      rw [if_pos rfl, Option.some_inj]
      constructor
      · rintro rfl
        exact Or.inl hassigns
      · rintro (hvalue | ⟨_, hnone⟩)
        · exact (hassigns.unique hvalue).2
        · exact absurd hassigns (hnone found)
    · have hnone other : ¬ Assigns table (Signs.normalize line.squeeze) name other :=
        fun hother => hname (hother.unique hassigns).1
      simp [hname, hnone]
  · have hnone other : ¬ Assigns table (Signs.normalize line.squeeze) name other :=
      fun hother => hstatus ((status_eq_assignment_iff hreply).mpr ⟨_, _, hother⟩)
    simp [table_eq_self hreply hstatus, hnone]

/-- A name that is bound stays bound. -/
theorem contains_table (hreply : process table line = .ok reply)
    (hbound : table.contains name = true) : reply.table.contains name = true := by
  by_cases hstatus : reply.outcome.status = .assignment
  · obtain ⟨target, found, hassigns⟩ := (status_eq_assignment_iff hreply).mp hstatus
    rw [table_eq_bind hreply hassigns, Variables.contains, Variables.get?_bind]
    split
    · rfl
    · exact hbound
  · rwa [table_eq_self hreply hstatus]

theorem replies_cons {rest : List Text} {answers : List Reply}
    (hreply : process table line = .ok reply)
    (hrest : replies reply.table rest = .ok answers) :
    replies table (line :: rest) = .ok (reply :: answers) := by
  rw [replies, hreply, Except.bind, hrest]
  rfl

/-- The table that answering lines leaves. -/
def tableAfter (table : Variables) (lines : List Text) : Except Fault Variables :=
  (replies table lines).map fun answers => (answers.map Reply.table).getLastD table

theorem tableAfter_cons (table : Variables) (line : Text) (rest : List Text) :
    tableAfter table (line :: rest) =
      (process table line).bind fun reply => tableAfter reply.table rest := by
  rw [tableAfter, replies]
  cases process table line with
  | error fault => rfl
  | ok reply =>
      simp only [Except.bind, tableAfter, map_map, List.map_cons, List.getLastD_cons]

/-- The second part of a run starts with the table that the first part leaves. -/
theorem tableAfter_append (table : Variables) (first second : List Text) :
    tableAfter table (first ++ second) =
      (tableAfter table first).bind fun middle => tableAfter middle second := by
  induction first generalizing table with
  | nil => rfl
  | cons line rest ih =>
      rw [List.cons_append, tableAfter_cons, tableAfter_cons]
      cases process table line with
      | error fault => rfl
      | ok reply => exact ih reply.table

theorem exists_tableAfter (table : Variables) (lines : List Text) :
    ∃ final, tableAfter table lines = .ok final := by
  induction lines generalizing table with
  | nil => exact ⟨table, rfl⟩
  | cons line rest ih =>
      obtain ⟨reply, hreply, _⟩ := exists_process table line
      rw [tableAfter_cons, hreply]
      exact ih reply.table

theorem contains_tableAfter {lines : List Text} {final : Variables}
    (hrun : tableAfter table lines = .ok final) (hbound : table.contains name = true) :
    final.contains name = true := by
  induction lines generalizing table with
  | nil =>
      cases hrun
      exact hbound
  | cons line rest ih =>
      rw [tableAfter_cons] at hrun
      obtain ⟨reply, hreply, hrest⟩ := bind_eq_ok_iff.mp hrun
      exact ih hrest (contains_table hreply hbound)

/-- Line number `place` of a run from the empty table is answered as an assignment of
a value to a name. -/
def AssignsAt (lines : List Text) (place : Nat) (name : Text) (value : Int) : Prop :=
  ∃ line table reply, lines[place]? = some line ∧
    tableAfter .empty (lines.take place) = .ok table ∧ process table line = .ok reply ∧
    reply.outcome.status = .assignment ∧
    Assigns table (Signs.normalize line.squeeze) name value

theorem AssignsAt.lt_length {lines : List Text} {place : Nat}
    (h : AssignsAt lines place name value) : place < lines.length := by
  obtain ⟨line, table, reply, hline, _⟩ := h
  exact (List.getElem?_eq_some_iff.mp hline).1

/-- One more line assigns or does not, and changes nothing about the lines before. -/
theorem assignsAt_concat_iff {lines : List Text} {place : Nat}
    (hrun : tableAfter .empty lines = .ok table) :
    AssignsAt (lines ++ [line]) place name value ↔
      AssignsAt lines place name value ∨
        (place = lines.length ∧ Assigns table (Signs.normalize line.squeeze) name value) := by
  constructor
  · intro h
    obtain ⟨found, before, reply, hline, hbefore, hreply, hstatus, hassigns⟩ := h
    have hplace : place < lines.length + 1 := by
      simpa using (List.getElem?_eq_some_iff.mp hline).1
    rcases Nat.lt_succ_iff_lt_or_eq.mp hplace with hlt | rfl
    · rw [List.getElem?_append_left hlt] at hline
      rw [List.take_append_of_le_length (Nat.le_of_lt hlt)] at hbefore
      exact Or.inl ⟨found, before, reply, hline, hbefore, hreply, hstatus, hassigns⟩
    · rw [List.getElem?_concat_length] at hline
      rw [List.take_left, hrun] at hbefore
      obtain rfl : line = found := Option.some.inj hline
      obtain rfl : table = before := Except.ok.inj hbefore
      exact Or.inr ⟨rfl, hassigns⟩
  · rintro (h | ⟨rfl, hassigns⟩)
    · have hlt := h.lt_length
      obtain ⟨found, before, reply, hline, hbefore, hanswer⟩ := h
      refine ⟨found, before, reply, ?_, ?_, hanswer⟩
      · rw [List.getElem?_append_left hlt, hline]
      · rw [List.take_append_of_le_length (Nat.le_of_lt hlt), hbefore]
    · obtain ⟨reply, hreply, _⟩ := exists_process table line
      have hstatus := (status_eq_assignment_iff hreply).mpr ⟨name, value, hassigns⟩
      refine ⟨line, table, reply, ?_, ?_, hreply, hstatus, hassigns⟩
      · rw [List.getElem?_concat_length]
      · rw [List.take_left, hrun]

/-- After a run a name has the value of the last line that assigns to it. -/
theorem get?_tableAfter_iff {lines : List Text} {final : Variables}
    (hrun : tableAfter .empty lines = .ok final) (name : Text) (value : Int) :
    final.get? name = some value ↔
      ∃ place, AssignsAt lines place name value ∧
        ∀ later, place < later → ∀ other, ¬ AssignsAt lines later name other := by
  -- from the end, because what the last line assigns hides all that came before
  induction lines using List.reverseRecOn generalizing final value with
  | nil =>
      cases hrun
      have hnone place : ¬ AssignsAt [] place name value := fun h => absurd h.lt_length (by simp)
      simp [hnone]
  | append_singleton lines line ih =>
      rw [tableAfter_append] at hrun
      obtain ⟨middle, hmiddle, hlast⟩ := bind_eq_ok_iff.mp hrun
      rw [tableAfter_cons] at hlast
      obtain ⟨reply, hreply, hfinal⟩ := bind_eq_ok_iff.mp hlast
      obtain rfl : reply.table = final := Except.ok.inj hfinal
      rw [get?_table_iff hreply, ih hmiddle]
      simp only [assignsAt_concat_iff hmiddle]
      constructor
      · rintro (hassigns | ⟨⟨place, hplace, hlast⟩, hnone⟩)
        · refine ⟨lines.length, Or.inr ⟨rfl, hassigns⟩, fun later hlater other => ?_⟩
          rintro (h | ⟨rfl, _⟩)
          · exact absurd h.lt_length (Nat.lt_asymm hlater)
          · exact absurd hlater (Nat.lt_irrefl _)
        · refine ⟨place, Or.inl hplace, fun later hlater other => ?_⟩
          rintro (h | ⟨rfl, hassigns⟩)
          · exact hlast later hlater other h
          · exact hnone other hassigns
      · rintro ⟨place, hplace | ⟨_, hassigns⟩, hlast⟩
        · refine Or.inr ⟨⟨place, hplace, fun later hlater other h => ?_⟩, fun other hassigns => ?_⟩
          · exact hlast later hlater other (Or.inl h)
          · exact hlast lines.length hplace.lt_length other (Or.inr ⟨rfl, hassigns⟩)
        · exact Or.inl hassigns

/-- What lines do to the table. A line is answered as an assignment exactly if its
text, without blanks and redundant signs, assigns a value to a name; then that name
and no other is bound to that value, and every other line leaves the table as it
is. So after a run from the empty table every bound name consists of letters, no
name was ever removed, and each has the value of the last line that assigns to it. -/
theorem process_table_and_run :
    (∀ table line, ∃ reply, process table line = .ok reply ∧
      (reply.outcome.status = .assignment ↔
        ∃ name value, Assigns table (Signs.normalize line.squeeze) name value) ∧
      (∀ name value, Assigns table (Signs.normalize line.squeeze) name value →
        reply.table = table.bind name value ∧
          ∀ other, reply.table.get? other =
            if other = name then some value else table.get? other) ∧
      (reply.outcome.status ≠ .assignment → reply.table = table)) ∧
    ∀ lines, ∃ final, tableAfter .empty lines = .ok final ∧
      (∀ name, final.contains name = true → name ∈ letters.matches') ∧
      (∀ before after, lines = before ++ after → ∃ middle, tableAfter .empty before = .ok middle ∧
        ∀ name, middle.contains name = true → final.contains name = true) ∧
      ∀ name value, final.get? name = some value ↔
        ∃ place, AssignsAt lines place name value ∧
          ∀ later, place < later → ∀ other, ¬ AssignsAt lines later name other := by
  constructor
  · intro table line
    obtain ⟨reply, hreply, _⟩ := exists_process table line
    refine ⟨reply, hreply, status_eq_assignment_iff hreply, fun name value hassigns => ?_,
      table_eq_self hreply⟩
    have htable := table_eq_bind hreply hassigns
    exact ⟨htable, fun other => by rw [htable, Variables.get?_bind]⟩
  · intro lines
    obtain ⟨final, hrun⟩ := exists_tableAfter .empty lines
    refine ⟨final, hrun, fun name hbound => ?_, ?_, get?_tableAfter_iff hrun⟩
    · obtain ⟨value, hvalue⟩ := Option.isSome_iff_exists.mp hbound
      obtain ⟨place, hplace, _⟩ := (get?_tableAfter_iff hrun name value).mp hvalue
      obtain ⟨_, _, _, _, _, _, _, _, _, hletters, _⟩ := hplace
      exact hletters
    · rintro before after rfl
      rw [tableAfter_append] at hrun
      obtain ⟨middle, hmiddle, hafter⟩ := bind_eq_ok_iff.mp hrun
      exact ⟨middle, hmiddle, fun name => contains_tableAfter hafter⟩

end Calculator.Session
