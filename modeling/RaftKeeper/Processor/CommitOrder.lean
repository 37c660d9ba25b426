import RaftKeeper.Lib.Run
import RaftKeeper.Processor.Transition

/-!
# Committed requests are applied once each, in the order in which they were committed

The processor removes a committed request from its queue only after it has applied it, and
it applies nothing else but reads. Whatever the callers do, what it has applied and what is
left together are what was committed.
-/

namespace RaftKeeper

/-- What the log holds of a request: `create_time` is set by the server that received it. -/
def RequestForSession.logged (request : RequestForSession) : RequestForSession :=
  { request with createTime := 0 }

/-- The writes as the log keeps them. -/
def loggedWrites (requests : List RequestForSession) : List RequestForSession :=
  (requests.filter fun request => !request.request.isReadRequest).map (·.logged)

@[simp]
theorem loggedWrites_append (first second : List RequestForSession) :
    loggedWrites (first ++ second) = loggedWrites first ++ loggedWrites second := by
  simp [loggedWrites]

theorem loggedWrites_of_writes {requests : List RequestForSession}
    (writes : ∀ request ∈ requests, request.request.isReadRequest = false) :
    loggedWrites requests = requests.map (·.logged) := by
  rw [loggedWrites, List.filter_eq_self.mpr]
  intro request isMember
  rw [writes request isMember]
  rfl

namespace RequestProcessor

variable {parallel : ℕ} {surroundings : Surroundings} {processor after : RequestProcessor}
  {handed : Handed}

/-- A step applies a read, the first of the committed requests, or nothing. -/
inductive CommittedStep (surroundings : Surroundings) (processor after : RequestProcessor) :
    Handed → Prop
  | none {handed : Handed} (same : after.unapplied = processor.unapplied)
      (onlyReads : ∀ {request}, handed = .process request → request.request.isReadRequest = true) :
      CommittedStep surroundings processor after handed
  | first {request applied : RequestForSession}
      (isFirst : processor.unapplied = request :: after.unapplied)
      (sameLogged : applied.logged = request.logged) :
      CommittedStep surroundings processor after (applyRequest surroundings applied)

theorem unapplied_beginErrors {errors left : ℕ}
    (stands : processor.stage = .committing left errors) :
    (processor.beginErrors errors).unapplied = processor.unapplied := by
  by_cases noErrors : processor.errorRequestIds = ∅ <;>
    simp [unapplied, beginErrors, stands, noErrors]

theorem committedStep_transition
    (moves : Transition parallel surroundings processor after handed) :
    CommittedStep surroundings processor after handed := by
  cases moves with
  | read stands first isRead =>
    apply CommittedStep.none
    · simp [unapplied, stands]
    · intro request isProcessed
      unfold applyRequest at isProcessed
      split at isProcessed
      · cases isProcessed
      · cases isProcessed
        exact isRead
  | @applySession _ _ request rest stands first isSession
  | @applyRemote _ _ request rest stands first _ _ | @applyAuth _ _ request rest stands first _ =>
    apply @CommittedStep.first surroundings processor _ request request _ rfl
    simp [unapplied, stands, first]
  | @applyLocal _ _ request applied rest found stands first _ _ _ should =>
    rcases shouldProcess_eq_some should with ⟨createTime, rfl⟩
    refine @CommittedStep.first surroundings processor _ request
      { request with createTime := createTime } ?_ rfl
    simp [unapplied, stands, first]
  | move stands _ isMoved =>
    subst isMoved
    exact .none (by simp [unapplied, stands, moveRequestToPendingQueue]) (by simp)
  | committedAll stands => exact .none (unapplied_beginErrors stands) (by simp)
  | stopAtPending stands =>
    refine .none ?_ (by simp)
    by_cases noErrors : processor.errorRequestIds = ∅ <;>
      simp [unapplied, beginErrors, stands, noErrors]
  | pop stands => exact .none (by simp [unapplied, stands, popStep]) (by simp)
  | fail stands fails =>
    rcases errorStep_frame fails with ⟨_, sameQueue, standsAfter, notProcessed⟩
    refine .none (by simp [unapplied, stands, standsAfter, sameQueue]) ?_
    intro request isProcessed
    exact absurd isProcessed (notProcessed request)
  | sample stands | sampleErrors stands | movedAll stands | readAll stands | eraseSession stands
  | stopAtWrite stands | peekNone stands | failedAll stands =>
    exact .none (by simp [unapplied, stands]) (by simp)

end RequestProcessor

namespace ProcessorHistory

variable {parallel : ℕ} {history after : ProcessorHistory}

open RequestProcessor

/-- The writes that are applied are a beginning of those that are committed. -/
structure CommitSound (history : ProcessorHistory) : Prop where
  applied : loggedWrites history.processed ++ loggedWrites history.processor.unapplied =
    loggedWrites history.committed
  popSound : history.processor.PopSound

theorem CommitSound.run {surroundings : Surroundings} (sound : history.CommitSound)
    (moves : history.next parallel (.run surroundings) = some after) : after.CommitSound := by
  rcases next_run moves with ⟨processor, handed, transition, rfl⟩
  constructor
  · rw [hand_processor, hand_committed, ← sound.applied]
    cases committedStep_transition transition with
    | none same onlyReads =>
      rw [same]
      congr 1
      cases handed with
      | process request => simp [hand, loggedWrites, onlyReads rfl]
      | _ => rfl
    | @first request applied isFirst sameLogged =>
      have sameRequest : applied.logged.request = request.logged.request :=
        congrArg RequestForSession.request sameLogged
      change applied.request = request.request at sameRequest
      by_cases isRead : request.request.isReadRequest = true
      · -- A read is applied or answered with an error; it counts on neither side.
        rw [isFirst]
        unfold applyRequest
        split <;> simp [hand, loggedWrites, sameRequest, isRead]
      · rw [isFirst, applyRequest, if_neg (by simp [sameRequest, isRead])]
        simp [hand, loggedWrites, sameRequest, isRead, sameLogged]
  · rw [hand_processor]
    exact popSound_transition transition

theorem CommitSound.next {call : ProcessorCall} (sound : history.CommitSound)
    (moves : history.next parallel call = some after) : after.CommitSound := by
  cases call with
  | push request =>
    rw [next_push moves]
    exact ⟨sound.applied, sound.popSound⟩
  | commit request =>
    rw [next_commit moves]
    refine ⟨?_, fun _ => by simp⟩
    rw [unapplied_commit sound.popSound, loggedWrites_append, loggedWrites_append,
      ← sound.applied, List.append_assoc]
  | onError error =>
    rw [(next_onError moves).2]
    exact ⟨sound.applied, sound.popSound⟩
  | run surroundings => exact sound.run moves

theorem commitSound_start : ({} : ProcessorHistory).CommitSound := ⟨rfl, by simp [PopSound]⟩

/-- What was applied apart from reads is a prefix of what was committed. -/
theorem applied_in_commit_order
    (reached : ReachableBy (next parallel) (fun _ _ => True) {} history) :
    loggedWrites history.processed <+: loggedWrites history.committed ∧
      ((∀ request ∈ history.committed, request.request.isReadRequest = false) →
        loggedWrites history.processed <+: history.committed.map (·.logged)) := by
  have sound : history.CommitSound :=
    ReachableBy.invariant CommitSound commitSound_start
      (fun isSound _ moves => isSound.next moves) reached
  have isPrefix : loggedWrites history.processed <+: loggedWrites history.committed :=
    ⟨_, sound.applied⟩
  refine ⟨isPrefix, ?_⟩
  intro writes
  rw [← loggedWrites_of_writes writes]
  exact isPrefix

def remoteRun : List ProcessorCall :=
  [.commit { sessionId := 7, xid := 1, request := .single (.remove { path := ascii "/a" }) },
    .commit { sessionId := 7, xid := 2, request := .single (.sync (ascii "/a")) }] ++
    List.replicate 6 (.run (.sample false))

theorem applied_in_commit_order_remoteRun :
    ∃ history, ReachableBy (next 1) (fun _ _ => True) {} history ∧
      (history.processed.length = 1 ∧ history.committed.length = 2) ∧
      loggedWrites history.processed <+: loggedWrites history.committed := by
  exact exists_reached_of _ remoteRun (by decide +kernel)
    fun reached lengths => ⟨lengths, (applied_in_commit_order reached).1⟩

end ProcessorHistory

end RaftKeeper
