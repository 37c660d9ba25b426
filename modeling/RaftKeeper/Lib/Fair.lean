import RaftKeeper.Lib.Run

/-!
# Fair runs

The inputs of an infinite run are the threads that may take the next step; one that cannot move
leaves the state as it is. The rule is that of a measure and a helpful thread: no step increases the
measure, a step of the helpful thread decreases it, and a step that leaves it as it is leaves the
same thread helpful.
-/

universe u v

variable {σ : Type u} {ι : Type v}

/-- An infinite run in which every thread gets its turn again and again; a thread that cannot move
leaves the state as it is. -/
structure FairRun (next : σ → ι → Option σ) (allowed : σ → ι → Prop) (run : ℕ → σ)
    (schedule : ℕ → ι) : Prop where
  moves : ∀ time, run (time + 1) = (next (run time) (schedule time)).getD (run time)
  meets : ∀ time, allowed (run time) (schedule time)
  fair : ∀ thread time, ∃ later, time ≤ later ∧ schedule later = thread

namespace FairRun

variable {next : σ → ι → Option σ} {allowed : σ → ι → Prop} {run : ℕ → σ} {schedule : ℕ → ι}

theorem reachable (isFair : FairRun next allowed run schedule) (time : ℕ) :
    ReachableBy next allowed (run 0) (run time) := by
  induction time with
  | zero => exact .start
  | succ time ih =>
    rw [isFair.moves]
    cases moves : next (run time) (schedule time) with
    | none => exact ih
    | some after => exact ih.step (isFair.meets time) moves

section

variable (goal : σ → Prop) (measure : σ → ℕ) (helpful : σ → ι)

theorem decreases_or_same (never : ∀ time, ¬ goal (run time))
    (kept : ∀ time, ¬ goal (run time) → measure (run (time + 1)) < measure (run time) ∨
      measure (run (time + 1)) = measure (run time) ∧ helpful (run (time + 1)) = helpful (run time))
    (time delay : ℕ) :
    (∃ later, measure (run later) < measure (run time)) ∨
      measure (run (time + delay)) = measure (run time) ∧
        helpful (run (time + delay)) = helpful (run time) := by
  induction delay with
  | zero => exact .inr ⟨rfl, rfl⟩
  | succ delay ih =>
    rcases ih with decreased | ⟨sameMeasure, sameHelpful⟩
    · exact .inl decreased
    · rcases kept (time + delay) (never _) with decreases | ⟨sameNext, helpfulNext⟩
      · exact .inl ⟨time + delay + 1, by omega⟩
      · exact .inr ⟨sameNext.trans sameMeasure, helpfulNext.trans sameHelpful⟩

/-- The rule of the helpful thread. -/
theorem eventually (isFair : FairRun next allowed run schedule)
    (helps : ∀ time, ¬ goal (run time) → schedule time = helpful (run time) →
      measure (run (time + 1)) < measure (run time))
    (kept : ∀ time, ¬ goal (run time) → measure (run (time + 1)) < measure (run time) ∨
      measure (run (time + 1)) = measure (run time) ∧
        helpful (run (time + 1)) = helpful (run time)) :
    ∃ time, goal (run time) := by
  by_contra notReached
  have never : ∀ time, ¬ goal (run time) := fun time reached => notReached ⟨time, reached⟩
  have later : ∀ time, ∃ other, measure (run other) < measure (run time) := by
    intro time
    rcases isFair.fair (helpful (run time)) time with ⟨scheduled, notBefore, isHelpful⟩
    rcases Nat.exists_eq_add_of_le notBefore with ⟨delay, rfl⟩
    rcases decreases_or_same goal measure helpful never kept time delay with
      decreased | ⟨sameMeasure, sameHelpful⟩
    · exact decreased
    · have decreases := helps (time + delay) (never _) (isHelpful.trans sameHelpful.symm)
      exact ⟨time + delay + 1, by omega⟩
  -- The measures of the run have no least one.
  have none : ∀ bound time, measure (run time) ≠ bound := by
    intro bound
    induction bound using Nat.strongRecOn with
    | ind bound ih =>
      intro time isBound
      rcases later time with ⟨other, smaller⟩
      exact ih _ (isBound ▸ smaller) other rfl
  exact none _ 0 rfl

end

def runOf (next : σ → ι → Option σ) (schedule : ℕ → ι) (start : σ) : ℕ → σ
  | 0 => start
  | time + 1 => (next (runOf next schedule start time) (schedule time)).getD
      (runOf next schedule start time)

theorem runOf_of_ended {start : σ} {last : ℕ}
    (ended : ∀ thread, next (runOf next schedule start last) thread = none) (delay : ℕ) :
    runOf next schedule start (last + delay) = runOf next schedule start last := by
  induction delay with
  | zero => rfl
  | succ delay ih => rw [← Nat.add_assoc, runOf, ih, ended, Option.getD_none]

theorem of_ended {start : σ} {last : ℕ}
    (fair : ∀ thread time, ∃ later, time ≤ later ∧ schedule later = thread)
    (ended : ∀ thread, next (runOf next schedule start last) thread = none)
    (meetsBefore : ∀ time < last, allowed (runOf next schedule start time) (schedule time))
    (meetsAfter : ∀ thread, allowed (runOf next schedule start last) thread) :
    FairRun next allowed (runOf next schedule start) schedule where
  moves := fun _ => rfl
  meets := by
    intro time
    rcases Nat.lt_or_ge time last with before | notBefore
    · exact meetsBefore time before
    · rcases Nat.exists_eq_add_of_le notBefore with ⟨delay, rfl⟩
      rw [runOf_of_ended ended]
      exact meetsAfter _
  fair := fair

end FairRun
