/-! # Computations that may fail

What is known of a computation when the computation built from it succeeds.
-/

namespace Calculator

variable {ε α β : Type}

theorem map_eq_ok_iff {f : α → β} {result : Except ε α} {value : β} :
    result.map f = .ok value ↔ ∃ found, result = .ok found ∧ f found = value := by
  cases result with
  | error fault => simp [Except.map]
  | ok found => simp [Except.map]

theorem map_eq_error_iff {f : α → β} {result : Except ε α} {fault : ε} :
    result.map f = .error fault ↔ result = .error fault := by
  cases result with
  | error found => simp [Except.map]
  | ok found => simp [Except.map]

theorem exists_map_eq_ok_iff {f : α → β} {result : Except ε α} :
    (∃ value, result.map f = .ok value) ↔ ∃ found, result = .ok found := by
  cases result with
  | error fault => simp [Except.map]
  | ok found => simp [Except.map]

theorem bind_eq_ok_iff {f : α → Except ε β} {result : Except ε α} {value : β} :
    result.bind f = .ok value ↔ ∃ found, result = .ok found ∧ f found = .ok value := by
  cases result with
  | error fault => simp [Except.bind]
  | ok found => simp [Except.bind]

theorem map_map {γ : Type} {f : α → β} {g : β → γ} (result : Except ε α) :
    (result.map f).map g = result.map fun value => g (f value) := by
  cases result <;> rfl

theorem map_bind {γ : Type} {f : α → β} {g : β → Except ε γ} (result : Except ε α) :
    (result.map f).bind g = result.bind fun value => g (f value) := by
  cases result <;> rfl

end Calculator
