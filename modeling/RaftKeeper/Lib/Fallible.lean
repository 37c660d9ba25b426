import Mathlib.Init

/-!
# Computations that may fail

A sequence of computations returns a value exactly when each of them does.
-/

universe u v

namespace Except

variable {ε : Type u} {α β : Type v} {first : Except ε α} {value : β}

theorem bind_eq_ok_iff {second : α → Except ε β} :
    (first >>= second) = .ok value ↔ ∃ result, first = .ok result ∧ second result = .ok value := by
  cases first with
  | error _ | ok result => simp [bind, Except.bind]

theorem map_eq_ok_iff {change : α → β} :
    first.map change = .ok value ↔ ∃ result, first = .ok result ∧ change result = value := by
  cases first with
  | error _ | ok result => simp [Except.map]

theorem toOption_eq_some_iff {value : α} : first.toOption = some value ↔ first = .ok value := by
  cases first with
  | error _ | ok result => simp [Except.toOption]

end Except

namespace EStateM

variable {ε σ : Type u}

theorem get_apply (state : σ) : (get : EStateM ε σ σ) state = .ok state state := rfl

theorem modify_apply (change : σ → σ) (state : σ) :
    (modify change : EStateM ε σ PUnit) state = .ok ⟨⟩ (change state) := rfl

end EStateM
