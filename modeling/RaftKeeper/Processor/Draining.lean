import RaftKeeper.Processor.SessionProgress

/-!
# Committed requests do not pile up

When nothing new arrives, the loop empties its queues, whatever was pushed, committed and reported
before. A turn that begins with a committed request applies one, or it stops at a request that was
reported as failed; then the failures that are counted at its beginning are not none, and the first
of them is taken from the list.
-/

namespace RaftKeeper

namespace ProcessorHistory

open RequestProcessor

variable {parallel : ℕ} {surroundings : Surroundings} {history after : ProcessorHistory}
  {processor last : RequestProcessor} {handed : Handed}

/-- The queues of the runners and the queue of the committed requests are empty. -/
def Drained (history : ProcessorHistory) : Prop :=
  (∀ runner, history.processor.requestsQueue runner = []) ∧ history.processor.committedQueue = []

def backlog (history : ProcessorHistory) : ℕ :=
  history.processor.unapplied.length + history.processor.errorRequests.length

/-- The number of failures that is kept for the end of a turn is that of the marked requests. -/
def ErrorsSampled (processor : RequestProcessor) : Prop :=
  match processor.stage with
  | .moving _ _ errors | .reading _ _ _ errors | .committing _ errors | .popping _ _ _ errors =>
    errors = processor.errorRequestIds.card
  | .waiting | .sampling _ | .failing _ => True

theorem errorsSampled_transition (sampled : ErrorsSampled processor)
    (moves : Transition parallel surroundings processor last handed) : ErrorsSampled last := by
  cases moves with
  | sample | failedAll => trivial
  | sampleErrors => rfl
  | move stands _ isMoved =>
    subst isMoved
    simp only [ErrorsSampled, stands] at sampled
    exact sampled
  | committedAll | stopAtPending =>
    by_cases marked : processor.errorRequestIds = ∅ <;> simp [ErrorsSampled, beginErrors, marked]
  | fail _ fails =>
    rw [ErrorsSampled, (errorStep_frame fails).2.2.1]
    trivial
  | movedAll stands | readAll stands | eraseSession stands | read stands | stopAtWrite stands
  | peekNone stands | applySession stands | applyRemote stands | applyAuth stands
  | applyLocal stands | pop stands =>
    simp only [ErrorsSampled, stands] at sampled
    exact sampled

theorem errors_length_le (moves : Transition parallel surroundings processor last handed) :
    last.errorRequests.length ≤ processor.errorRequests.length := by
  cases moves with
  | move _ _ isMoved =>
    subst isMoved
    exact le_refl _
  | fail _ fails =>
    rcases errorStep_cases fails with ⟨_, rest, _, isErrors, rfl, _⟩
    simp [isErrors]
  | _ => exact le_refl _

theorem backlog_turn_le (moves : history.turn parallel surroundings = some after) :
    after.backlog ≤ history.backlog := by
  rcases next_run moves with ⟨processor, handed, transition, rfl⟩
  rw [backlog, hand_processor]
  exact Nat.add_le_add (unapplied_length_le transition) (errors_length_le transition)

theorem drained_of_cleared {left errors : ℕ} (sound : history.processor.QueuesSound parallel)
    (cleared : history.processor.Cleared parallel)
    (stands : history.processor.stage = .committing left errors)
    (isEmpty : history.processor.committedQueue = []) : history.Drained := by
  refine ⟨fun runner => List.eq_nil_iff_forall_not_mem.mpr fun request isQueued => ?_, isEmpty⟩
  simp only [Cleared, stands] at cleared
  rw [sound.placed isQueued, (cleared.2 request.sessionId).1] at isQueued
  cases isQueued

/-- In a turn the reads are answered and the failures counted, or the failures are being taken. -/
def Underway (parallel : ℕ) (history : ProcessorHistory) : Prop :=
  history.processor.Cleared parallel ∧ ErrorsSampled history.processor ∨
    ∃ left, history.processor.stage = .failing (left + 1)

theorem Underway.inside (underway : history.Underway parallel) :
    history.processor.stage ≠ .waiting := by
  rcases underway with ⟨cleared, _⟩ | ⟨left, stands⟩
  · intro waits
    simp [Cleared, waits] at cleared
  · simp [stands]

theorem underway_turn (positive : 0 < parallel) (sound : history.processor.QueuesSound parallel)
    (underway : history.Underway parallel)
    (moves : history.turn parallel surroundings = some after) :
    history.Drained ∨ after.backlog < history.backlog ∨ after.Underway parallel := by
  rcases next_run moves with ⟨processor, handed, transition, rfl⟩
  have fewerUnapplied := unapplied_length_le transition
  have fewerErrors := errors_length_le transition
  simp only [backlog, hand_processor, Underway]
  rcases underway with ⟨cleared, sampled⟩ | ⟨left, stands⟩
  · by_cases isCommitting : ∃ left errors, history.processor.stage = .committing left errors
    · rcases isCommitting with ⟨left, errors, stands⟩
      by_cases isEmpty : history.processor.committedQueue = []
      · exact .inl (drained_of_cleared sound cleared stands isEmpty)
      rcases committing_cases cleared stands isEmpty transition with applied | ⟨marked, stops⟩
      · exact .inr (.inl (by omega))
      · simp only [ErrorsSampled, stands] at sampled
        rcases Nat.exists_eq_succ_of_ne_zero (Finset.card_ne_zero.mpr
          (Finset.nonempty_iff_ne_empty.mpr marked)) with ⟨count, isCount⟩
        refine .inr (.inr (.inr ⟨count, ?_⟩))
        rw [stops, beginErrors, if_neg marked, sampled, isCount]
    · refine .inr (.inr (.inl ⟨?_, errorsSampled_transition sampled transition⟩))
      exact cleared_transition positive cleared sound.placed
        (fun left errors stands => isCommitting ⟨left, errors, stands⟩) transition
  · refine .inr (.inl ?_)
    cases transition with
    | fail _ fails =>
      rcases errorStep_cases fails with ⟨_, rest, _, isErrors, rfl, _⟩
      refine Nat.add_lt_add_of_le_of_lt fewerUnapplied ?_
      rw [isErrors]
      exact Nat.lt_succ_self _
    | _ => simp_all

theorem drain_one (positive : 0 < parallel) (sound : history.processor.QueuesSound parallel)
    (underway : history.Underway parallel) :
    Inevitable (turn parallel) (fun _ _ => True)
      (fun last => last.Drained ∨
        last.processor.QueuesSound parallel ∧ last.backlog < history.backlog) history := by
  refine Inevitable.of_measure (fun last => last.processor.rank parallel)
    (fun last => last.processor.QueuesSound parallel ∧ last.Underway parallel ∧
      last.backlog ≤ history.backlog) ?_ ⟨sound, underway, le_refl _⟩
  rintro before ⟨isSound, isUnderway, bound⟩ notReached
  refine ⟨fun _ _ => turn_isSome isSound, ?_⟩
  intro surroundings after _ moves
  have stillSound := queuesSound_next isSound moves
  rcases underway_turn positive isSound isUnderway moves with drained | fewer | stillUnderway
  · exact absurd (.inl drained) notReached
  · exact .inl (.inr ⟨stillSound, Nat.lt_of_lt_of_le fewer bound⟩)
  · refine .inr ⟨⟨stillSound, stillUnderway, (backlog_turn_le moves).trans bound⟩, ?_⟩
    rcases next_run moves with ⟨processor, handed, transition, rfl⟩
    have stillInside := stillUnderway.inside
    rw [hand_processor] at stillInside ⊢
    exact rank_transition isSound transition isUnderway.inside stillInside

theorem drain_from_waiting (positive : 0 < parallel)
    (sound : history.processor.QueuesSound parallel) (waits : history.processor.stage = .waiting) :
    Inevitable (turn parallel) (fun _ _ => True)
      (fun last => last.Drained ∨
        last.processor.QueuesSound parallel ∧ last.backlog < history.backlog) history := by
  apply Inevitable.later (fun _ _ => turn_isSome sound)
  intro surroundings after _ moves
  have sampled := sampled_of_waiting waits moves
  have sameBacklog : after.backlog = history.backlog := by
    rw [sampled]
    simp [backlog, unapplied, waits]
  rw [← sameBacklog]
  refine drain_one positive (queuesSound_next sound moves) (.inl ?_)
  rw [sampled]
  exact ⟨rfl, trivial⟩

theorem queuesSound_reached (reached : ReachableBy (next parallel) (fun _ _ => True) {} history) :
    history.processor.QueuesSound parallel := by
  refine reached.invariant (·.processor.QueuesSound parallel) queuesSound_start ?_
  intro before after call sound _ moves
  exact queuesSound_next sound moves

/-- The count taken at the beginning of a turn is one of failures that are still queued. -/
theorem failures_never_run_out
    (reached : ReachableBy (next parallel) (fun _ _ => True) {} history) :
    history.processor.stage.failures ≤ history.processor.errorRequests.length ∧
      ∀ left, history.processor.stage = .failing (left + 1) →
        history.processor.errorRequests ≠ [] := by
  have counted := (queuesSound_reached reached).counted
  refine ⟨counted, ?_⟩
  intro left stands isEmpty
  rw [stands, isEmpty] at counted
  exact Nat.not_succ_le_zero left counted

theorem failures_never_run_out_reportedTwice :
    ∃ history, ReachableBy (next 1) (fun _ _ => True) {} history ∧
      history.processor.stage = .failing 1 ∧ history.processor.errorRequests ≠ [] :=
  exists_reached_of (·.processor.stage = .failing 1)
    (List.replicate 2 (.onError ⟨true, 1, 1, .remove⟩) ++ List.replicate 6 (.run (.sample true)))
    (by decide +kernel)
    fun reached stands => ⟨stands, (failures_never_run_out reached).2 0 stands⟩

/-- Whatever was pushed, committed and reported, the loop applies all that is committed and answers
all that has failed. -/
theorem committed_work_drains (positive : 0 < parallel)
    (reached : ReachableBy (next parallel) (fun _ _ => True) {} history) :
    Inevitable (turn parallel) (fun _ _ => True) Drained history := by
  refine Inevitable.of_rounds backlog (fun {before} isSound => ?_)
    (fun isSound waits => drain_from_waiting positive isSound waits)
    (queuesSound_reached reached)
  refine reach_waiting (fun kept => kept.1) ?_ ⟨isSound, le_refl _⟩
  intro middle surroundings after kept _ moves
  exact ⟨queuesSound_next kept.1 moves, (backlog_turn_le moves).trans kept.2⟩

/-- A write is committed while its failure is reported twice. -/
theorem committed_work_drains_reportedTwice :
    ∃ history, ReachableBy (next 1) (fun _ _ => True) {} history ∧
      history.processor.committedQueue.length = 1 ∧ history.processor.errorRequests.length = 2 ∧
      Inevitable (turn 1) (fun _ _ => True) Drained history := by
  have pushed := (@ReachableBy.start _ _ (next 1) (fun _ _ => True) {}).step
    trivial (show next 1 {} (.push sampleWrite) = some _ from rfl)
  have reported := (pushed.step trivial
    (show next 1 _ (.onError ⟨true, 1, 1, .remove⟩) = some _ from rfl)).step trivial
    (show next 1 _ (.onError ⟨true, 1, 1, .remove⟩) = some _ from rfl)
  have reached := reported.step trivial (show next 1 _ (.commit sampleWrite) = some _ from rfl)
  exact ⟨_, reached, rfl, rfl, committed_work_drains Nat.one_pos reached⟩

end ProcessorHistory

end RaftKeeper
