import Mathlib.Order.WellFounded
import RaftKeeper.Lib.Run

/-!
# What happens whatever the inputs are

`Inevitable next allowed goal state` says that every sequence of allowed inputs leads from
`state` to a state with the property `goal`, in finitely many steps each of which returns.
-/

universe u v

variable {σ : Type u} {ι : Type v}

/-- Whatever allowed inputs come, no step fails and the goal is reached. -/
inductive Inevitable (next : σ → ι → Option σ) (allowed : σ → ι → Prop) (goal : σ → Prop) : σ → Prop
  | now {state : σ} (reached : goal state) : Inevitable next allowed goal state
  | later {state : σ} (returns : ∀ input, allowed state input → (next state input).isSome)
      (moves : ∀ input after, allowed state input → next state input = some after →
        Inevitable next allowed goal after) : Inevitable next allowed goal state

namespace Inevitable

variable {next : σ → ι → Option σ} {allowed : σ → ι → Prop} {goal further : σ → Prop} {state : σ}

theorem trans (first : Inevitable next allowed goal state)
    (second : ∀ {middle}, goal middle → Inevitable next allowed further middle) :
    Inevitable next allowed further state := by
  induction first with
  | now reached => exact second reached
  | later returns _ ih =>
    apply later returns
    intro input after meets moves
    exact ih input after meets moves

/-- The rule of the decreasing measure. -/
theorem of_measure {β : Type*} [LT β] [WellFoundedLT β] (measure : σ → β) (property : σ → Prop)
    (decreases : ∀ {before}, property before → ¬ goal before →
      (∀ input, allowed before input → (next before input).isSome) ∧
      ∀ {input after}, allowed before input → next before input = some after →
        goal after ∨ property after ∧ measure after < measure before)
    (holds : property state) : Inevitable next allowed goal state := by
  induction size : measure state using WellFoundedLT.induction generalizing state with
  | ind size ih =>
    by_cases reached : goal state
    · exact now reached
    · rcases decreases holds reached with ⟨returns, moves⟩
      apply later returns
      intro input after meets isNext
      rcases moves meets isNext with done | ⟨kept, smaller⟩
      · exact now done
      · exact ih (measure after) (size ▸ smaller) kept rfl

/-- The rule of rounds: the top of a round is always reached, and each round from there reaches the
goal or decreases the measure. -/
theorem of_rounds {property top : σ → Prop} (measure : σ → ℕ)
    (rises : ∀ {before}, property before → Inevitable next allowed
      (fun last => (property last ∧ measure last ≤ measure before) ∧ top last) before)
    (turns : ∀ {before}, property before → top before → Inevitable next allowed
      (fun last => goal last ∨ property last ∧ measure last < measure before) before)
    (holds : property state) : Inevitable next allowed goal state := by
  induction size : measure state using Nat.strongRecOn generalizing state with
  | ind size ih =>
    apply (rises holds).trans
    rintro middle ⟨⟨kept, bound⟩, isTop⟩
    apply (turns kept isTop).trans
    rintro last (done | ⟨lastKept, fewer⟩)
    · exact now done
    · exact ih (measure last) (by omega) lastKept rfl

end Inevitable
