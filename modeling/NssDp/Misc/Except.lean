import Mathlib.Tactic.Common

/-!
# Calls that may not return

A computation in `Except` yields a value where its parts do.
-/

namespace Except

variable {ε α β : Type*} {x : Except ε α}

theorem map_eq_ok_iff {f : α → β} {b : β} : x.map f = .ok b ↔ ∃ a, x = .ok a ∧ f a = b := by
  cases x with
  | error e => simp [Except.map]
  | ok a => simp [Except.map]

theorem map_eq_error_iff {f : α → β} {e : ε} : x.map f = .error e ↔ x = .error e := by
  cases x with
  | error e' => simp [Except.map]
  | ok a => simp [Except.map]

theorem bind_eq_ok_iff {f : α → Except ε β} {b : β} :
    x.bind f = .ok b ↔ ∃ a, x = .ok a ∧ f a = .ok b := by
  cases x with
  | error e => simp [Except.bind]
  | ok a => simp [Except.bind]

theorem bind_eq_error_iff {f : α → Except ε β} {e : ε} :
    x.bind f = .error e ↔ x = .error e ∨ ∃ a, x = .ok a ∧ f a = .error e := by
  cases x with
  | error e' => simp [Except.bind]
  | ok a => simp [Except.bind]

theorem toOption_eq_some_iff {a : α} : x.toOption = some a ↔ x = .ok a := by
  cases x with
  | error e => simp [Except.toOption]
  | ok b => simp [Except.toOption]

end Except
