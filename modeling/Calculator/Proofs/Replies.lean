import Calculator.Proofs.Effects
import Calculator.Proofs.Stacks

/-! # The shapes of replies

No line makes a session fail. What it answers has one of five shapes, and an
error is recorded exactly with a failed calculation.
-/

namespace Calculator

/-- The ways in which a line can end. -/
inductive Outcome.Shape where
  | passed
  | done
  | shown
  | refused
  | failed
  deriving DecidableEq, Repr

/-- What a user reads of each refusal. -/
def Refusal.diagnostics : List (Refusal × String) :=
  [(.unknownCommand, "Unknown command"),
   (.invalidExpression, "Invalid expression"),
   (.invalidIdentifier, "Invalid identifier"),
   (.invalidAssignment, "Invalid assignment"),
   (.unknownVariable, "Unknown variable")]

theorem Refusal.mem_diagnostics (why : Refusal) : (why, why.describe) ∈ diagnostics := by
  cases why <;> simp [diagnostics, describe]

namespace Outcome

/-- How an outcome of each shape looks: its status, what is shown, and whether a
calculation failed. -/
inductive HasShape : Outcome → Shape → Prop where
  | passed : HasShape ⟨.proceed, none, false⟩ .passed
  | done {status : Status}
      (hstatus : status = .exit ∨ status = .command ∨ status = .assignment) :
      HasShape ⟨status, none, false⟩ .done
  | shown {status : Status} {numeral : Text} (hstatus : status = .ok ∨ status = .proceed)
      (hnumeral : Numeral.Canonical numeral) : HasShape ⟨status, some numeral, false⟩ .shown
  | refused {why : Refusal} {diagnostic : String}
      (hdiagnostic : (why, diagnostic) ∈ Refusal.diagnostics) :
      HasShape ⟨.refused why, some diagnostic.toList, false⟩ .refused
  | failed {message : Text} (hmessage : "Error: ".toList <+: message) :
      HasShape ⟨.proceed, some message, true⟩ .failed

/-- The only shape that an outcome can have. -/
def shape (outcome : Outcome) : Shape :=
  match outcome.internal, outcome.output, outcome.status with
  | true, _, _ => .failed
  | false, none, .proceed => .passed
  | false, none, _ => .done
  | false, some _, .refused _ => .refused
  | false, some _, _ => .shown

theorem HasShape.shape_eq {outcome : Outcome} {found : Shape} (h : HasShape outcome found) :
    outcome.shape = found := by
  cases h with
  | passed => rfl
  | done hstatus => rcases hstatus with rfl | rfl | rfl <;> rfl
  | shown hstatus => rcases hstatus with rfl | rfl <;> rfl
  | refused => rfl
  | failed hmessage => rfl

theorem HasShape.existsUnique {outcome : Outcome} {found : Shape} (h : HasShape outcome found) :
    ∃! shape, outcome.HasShape shape :=
  ⟨found, h, fun _ hother => hother.shape_eq.symm.trans h.shape_eq⟩

theorem hasShape_failure (message : String) : HasShape (failure message) .failed := by
  apply HasShape.failed
  rw [String.toList_append]
  exact List.prefix_append _ _

end Outcome

namespace Log

/-- The levels of the records that are more than a report of what was done. -/
def graveLevels (records : List Record) : List Level :=
  (records.map Record.level).filter (· ∈ [.warning, .error, .critical])

theorem graveLevels_append (first second : List Record) :
    graveLevels (first ++ second) = graveLevels first ++ graveLevels second := by
  rw [graveLevels, List.map_append, List.filter_append]
  rfl

theorem Quiet.graveLevels_eq {records : List Record} (h : Quiet records) :
    graveLevels records = [] := by
  rw [graveLevels, List.filter_eq_nil_iff]
  intro level hlevel
  obtain ⟨record, hrecord, rfl⟩ := List.mem_map.mp hlevel
  rw [h record hrecord]
  decide

end Log

theorem Text.squeeze_eq_nil_iff {line : Text} :
    line.squeeze = [] ↔ ∀ c ∈ line, isBlank c = true := by
  simp [squeeze, List.filter_eq_nil_iff]

/-- A text with an equals sign is checked as an assignment. -/
theorem Assignment.isSome_check? {text : Text} (hequals : '=' ∈ text) :
    (check? text).isSome = true := by
  obtain ⟨target, source, htarget, rfl⟩ := exists_first_equals hequals
  rw [check?_append_equals_cons htarget]
  rfl

namespace Session

open Outcome

variable {table : Variables} {text : Text} {reply : Reply}

theorem Effect.exists_hasShape (h : Effect table text reply) :
    ∃ shape, shape ≠ .passed ∧ reply.outcome.HasShape shape := by
  cases h with
  | done hstatus =>
      refine ⟨.done, nofun, .done ?_⟩
      exact hstatus.imp_right Or.inl
  | shown value hstatus =>
      exact ⟨.shown, nofun, .shown hstatus (Numeral.canonical_write value)⟩
  | refused why => exact ⟨.refused, nofun, .refused why.mem_diagnostics⟩
  | failed message => exact ⟨.failed, nofun, hasShape_failure message⟩
  | bound => exact ⟨.done, nofun, .done (Or.inr (Or.inr rfl))⟩

/-- Of the records of an answer only that of a failed calculation is grave. -/
theorem Effect.graveLevels_eq (h : Effect table text reply) :
    Log.graveLevels reply.log = if reply.outcome.internal then [.error] else [] := by
  cases h with
  | @failed log record message hlog hlevel =>
      have hgrave : Log.graveLevels [record] = [.error] := by
        rw [Log.graveLevels, List.map_singleton, hlevel]
        rfl
      rw [Log.graveLevels_append, hlog.graveLevels_eq, hgrave]
      rfl
  | done _ hlog | shown _ _ hlog | refused _ hlog | bound _ hlog => exact hlog.graveLevels_eq

/-- A session answers every line, whatever its table holds. The outcome has exactly
one of the shapes, and it is passed over if and only if it is blank. A record at
least as grave as a warning is written only when a calculation fails; then it is
the only one, and an error. On the way every look-up of a strength finds one. -/
theorem exists_process_hasShape (table : Variables) (line : Text) :
    ('=' ∈ Signs.normalize line.squeeze →
        (Assignment.check? (Signs.normalize line.squeeze)).isSome = true) ∧
      (∀ symbol, Postfix.Machine.initial.run (Signs.normalize line.squeeze) ≠
        .error (.unranked symbol)) ∧
      ∃ reply, process table line = .ok reply ∧
        (∃! shape, reply.outcome.HasShape shape) ∧
        (reply.outcome.HasShape .passed ↔ ∀ c ∈ line, Text.isBlank c = true) ∧
        Log.graveLevels reply.log = if reply.outcome.internal then [.error] else [] := by
  refine ⟨Assignment.isSome_check?, Postfix.Machine.run_initial_ne_unranked _, ?_⟩
  obtain ⟨reply, hreply, hends⟩ := exists_process table line
  refine ⟨reply, hreply, ?_⟩
  rw [← Text.squeeze_eq_nil_iff]
  rcases hends with ⟨hblank, rfl⟩ | ⟨hline, heffect⟩
  · have hpassed : HasShape (silent .proceed) .passed := .passed
    refine ⟨hpassed.existsUnique, ?_, rfl⟩
    exact ⟨fun _ => hblank, fun _ => hpassed⟩
  · obtain ⟨shape, hne, hshape⟩ := heffect.exists_hasShape
    refine ⟨hshape.existsUnique, ⟨fun hpassed => ?_, fun hblank => absurd hblank hline⟩,
      heffect.graveLevels_eq⟩
    exact absurd (hshape.shape_eq.symm.trans hpassed.shape_eq) hne

end Session

end Calculator
