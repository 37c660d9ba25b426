import RaftKeeper.Processor.SessionLane

/-!
# The requests of a session are applied in the order in which they were sent

A session that keeps to the rules (distinct `xid`s, writes committed in the order in which
they were sent, no failures) is in an ordered lane: what was applied, what waits and what is
queued are, in this order, what it has sent.
-/

namespace RaftKeeper

namespace ProcessorHistory

variable {parallel : ℕ} {session : Int64} {history after : ProcessorHistory}

open RequestProcessor

/-- What is assumed of a local session: it stays connected and the leader stays alive, its
requests have distinct `xid`s, its writes are committed in the order in which they were sent
and only after that, and nothing is reported as failed. -/
def Orderly (session : Int64) (history : ProcessorHistory) : ProcessorCall → Prop
  | .push request => request.sessionId = session →
      request.request.Ordinary ∧ request.xid ∉ (ofSession session history.pushed).map Prod.fst
  | .commit request =>
    request.sessionId = session → request.request.Ordinary →
      ofSession session history.committed ++ [request.content] <+:
        (ofSession session history.pushed).filter isWrite
  | .onError _ => False
  | .run surroundings =>
    surroundings.isLocalSession session = true ∧ surroundings.isLeaderAlive = true

/-- Nothing has failed. -/
def Calm (processor : RequestProcessor) : Prop :=
  processor.errorRequestIds = ∅ ∧ ∀ left, processor.stage ≠ .failing left

theorem Calm.transition {surroundings : Surroundings} {before after : RequestProcessor}
    {handed : Handed} (calm : Calm before)
    (moves : Transition parallel surroundings before after handed) : Calm after := by
  rcases calm with ⟨noErrors, notFailing⟩
  cases moves with
  | move _ isRunner isMoved =>
    subst isMoved
    exact ⟨noErrors, by rintro _ ⟨⟩⟩
  | committedAll | stopAtPending => exact ⟨noErrors, by simp [beginErrors, noErrors]⟩
  | failedAll stands | fail stands => exact absurd stands (notFailing _)
  | _ => exact ⟨noErrors, by rintro _ ⟨⟩⟩

/-- The lane of an orderly session is in order, and nothing fails. -/
structure SessionSound (parallel : ℕ) (session : Int64) (history : ProcessorHistory) : Prop where
  ordered : (history.lane parallel session).Ordered isWrite Prod.fst
  laneSound : history.LaneSound parallel session
  calm : Calm history.processor

variable {call : ProcessorCall}

theorem Orderly.separate (orderly : history.Orderly session call) : Separate session call := by
  cases call with
  | push request => exact fun isOwn => (orderly isOwn).1
  | commit request =>
    intro isOwn ordinary
    have isNext := (orderly isOwn ordinary).subset (List.mem_append_right _ List.mem_cons_self)
    simpa [isWrite, RequestForSession.content] using (List.mem_filter.mp isNext).2
  | onError error => exact orderly.elim
  | run surroundings => trivial

theorem Orderly.inOrder (orderly : history.Orderly session call)
    {event : Lane.Event (Int32 × Request) Int32} (sees : Sees session call event) :
    (history.lane parallel session).InOrder isWrite Prod.fst event := by
  cases sees with
  | push isOwn => exact (orderly isOwn).2
  | commit isOwn ordinary => exact orderly isOwn ordinary
  | onError => exact orderly.elim
  | run => exact orderly.2

theorem Calm.next (calm : Calm history.processor) (orderly : history.Orderly session call)
    (moves : history.next parallel call = some after) :
    Calm after.processor := by
  cases call with
  | push request => exact next_push moves ▸ calm
  | commit request => exact next_commit moves ▸ calm
  | onError error => exact orderly.elim
  | run surroundings =>
    rcases next_run moves with ⟨processor, handed, transition, rfl⟩
    rw [hand_processor]
    exact calm.transition transition

theorem SessionSound.next (positive : 0 < parallel)
    (sound : history.SessionSound parallel session) (orderly : history.Orderly session call)
    (moves : history.next parallel call = some after) : after.SessionSound parallel session := by
  refine ⟨?_, sound.laneSound.next orderly.separate moves, sound.calm.next orderly moves⟩
  have notFailing : ∀ left, history.processor.stage = .failing (left + 1) →
      history.FailureSound session := by
    exact fun left stands => absurd stands (sound.calm.2 _)
  have isLocal : ∀ surroundings, call = .run surroundings →
      surroundings.isLocalSession session = true := by
    rintro surroundings rfl
    exact orderly.1
  rcases lane_next positive sound.laneSound notFailing isLocal orderly.separate moves with
    same | ⟨event, sees, laneStep⟩
  · rw [same]
    exact sound.ordered
  · exact sound.ordered.step laneStep (orderly.inOrder sees)

theorem sessionSound_start : ({} : ProcessorHistory).SessionSound parallel session where
  ordered := ⟨accounted_start, rfl, List.prefix_rfl, rfl⟩
  laneSound := laneSound_start
  calm := ⟨rfl, nofun⟩

end ProcessorHistory

end RaftKeeper
