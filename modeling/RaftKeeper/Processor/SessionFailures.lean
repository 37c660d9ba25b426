import RaftKeeper.Lib.LaneFailures
import RaftKeeper.Lib.Run
import RaftKeeper.Processor.SessionLane

/-!
# A session whose requests may fail

What the processor keeps for a session when its writes are committed in any order or reported as
failed. For this a session must not use an `xid` twice, and not one that stands for something else;
it must close once, since a failed Close is taken for any other.
-/

namespace RaftKeeper

open List Prod

namespace ProcessorHistory

variable {parallel : ℕ} {session : Int64} {history after : ProcessorHistory}

open RequestProcessor

/-- The `xid`s of Auth and of the session requests, and that of the response to a failed Auth. -/
def reservedXids : List Int32 := [0, authXid, newSessionXid, updateSessionXid]

/-- What is assumed of a local session in any case. A write of it is committed once and after it
was pushed. -/
def Careful (session : Int64) (history : ProcessorHistory) : ProcessorCall → Prop
  | .push request => request.sessionId = session →
      request.request.Ordinary ∧ request.xid ∉ reservedXids ∧
        request.xid ∉ (ofSession session history.pushed).map fst ∧
        request.xid ∉ failuresOf session history.reported ∧
        (request.request.getOpNum = .close → ∀ content ∈ ofSession session history.pushed,
          content.2.getOpNum ≠ .close)
  | .commit request => request.sessionId = session → request.request.Ordinary →
      request.content ∈ ofSession session history.pushed ∧ isWrite request.content = true ∧
        request.content ∉ ofSession session history.committed
  | .onError error => error.sessionId = session → Fits session history.pushed error
  | .run surroundings => surroundings.isLocalSession session = true

/-- What holds of a careful session, whatever failures are reported. -/
structure CarefulSound (parallel : ℕ) (session : Int64) (history : ProcessorHistory) : Prop where
  laneSound : history.LaneSound parallel session
  accounted : (history.lane parallel session).Accounted isWrite fst
  fits : ∀ error ∈ history.processor.errorRequests, error.sessionId = session →
    Fits session history.pushed error
  closes : ∀ first ∈ ofSession session history.pushed, ∀ second ∈ ofSession session history.pushed,
    first.2.getOpNum = .close → second.2.getOpNum = .close → first = second
  xids : ∀ content ∈ ofSession session history.pushed, content.1 ∉ reservedXids

theorem CarefulSound.failureSound (sound : history.CarefulSound parallel session) {left : ℕ}
    (stands : history.processor.stage = .failing left) : history.FailureSound session where
  fits := sound.fits
  waits := by
    intro request isPending
    apply sound.accounted.remains.subset
    apply mem_append_left
    simp only [lane, waitingOf, stands]
    exact mem_map_of_mem isPending
  closes := sound.closes
  xids := by
    intro content isSent
    have unreserved := sound.xids content isSent
    simp only [reservedXids, mem_cons, not_or] at unreserved
    exact ⟨unreserved.2.1, unreserved.1⟩

variable {call : ProcessorCall}

theorem Careful.separate (careful : history.Careful session call) : Separate session call := by
  cases call with
  | push request => exact fun isOwn => (careful isOwn).1
  | commit request =>
    intro isOwn ordinary
    simpa [isWrite, RequestForSession.content] using (careful isOwn ordinary).2.1
  | onError error | run surroundings => trivial

variable {event : Lane.Event (Int32 × Request) Int32}

theorem Careful.proper (careful : history.Careful session call) (sees : Sees session call event) :
    (history.lane parallel session).Proper isWrite fst event := by
  cases sees with
  | push isOwn =>
    rcases careful isOwn with ⟨_, _, fresh, unreported, _⟩
    exact ⟨fresh, unreported⟩
  | commit isOwn ordinary => exact careful isOwn ordinary
  | onError | run => trivial

theorem CarefulSound.lane_next (positive : 0 < parallel)
    (sound : history.CarefulSound parallel session) (careful : history.Careful session call)
    (moves : history.next parallel call = some after) :
    after.lane parallel session = history.lane parallel session ∨
      ∃ event, Sees session call event ∧ (history.lane parallel session).Proper isWrite fst event ∧
        Lane.Step isWrite fst (history.lane parallel session) event
          (after.lane parallel session) := by
  have isLocal : ∀ surroundings, call = .run surroundings →
      surroundings.isLocalSession session = true := by
    rintro surroundings rfl
    exact careful
  have failureSound : ∀ left, history.processor.stage = .failing (left + 1) →
      history.FailureSound session := fun _ stands => sound.failureSound stands
  rcases ProcessorHistory.lane_next positive sound.laneSound failureSound isLocal careful.separate
    moves with same | ⟨event, sees, laneStep⟩
  · exact .inl same
  · exact .inr ⟨event, sees, careful.proper sees, laneStep⟩

variable {request : RequestForSession}

theorem Fits.push {pushed : List RequestForSession} {error : ErrorRequest}
    (fits : Fits session pushed error)
    (unreported : request.sessionId = session → request.xid ≠ error.xid) :
    Fits session (pushed ++ [request]) error := by
  rcases fits with ⟨content, isSent, isContent⟩ | ⟨notSent, noClose⟩
  · refine .inl ⟨content, ?_, isContent⟩
    rw [ofSession_append]
    exact mem_append_left _ isSent
  · refine .inr ⟨?_, noClose⟩
    intro isSent
    rcases mem_map.mp isSent with ⟨content, isContent, same⟩
    rcases mem_ofSession_append_singleton isContent with isOld | ⟨isOwn, _, rfl⟩
    · exact notSent (same ▸ mem_map_of_mem isOld)
    · exact unreported isOwn same

theorem CarefulSound.push (sound : history.CarefulSound parallel session)
    (careful : history.Careful session (.push request)) :
    (∀ error ∈ history.processor.errorRequests, error.sessionId = session →
      Fits session (history.pushed ++ [request]) error) ∧
    (∀ first ∈ ofSession session (history.pushed ++ [request]),
      ∀ second ∈ ofSession session (history.pushed ++ [request]),
        first.2.getOpNum = .close → second.2.getOpNum = .close → first = second) ∧
    ∀ content ∈ ofSession session (history.pushed ++ [request]), content.1 ∉ reservedXids := by
  refine ⟨?_, ?_, ?_⟩
  · intro error isListed isOwn
    refine (sound.fits error isListed isOwn).push ?_
    intro requestOwn same
    rcases careful requestOwn with ⟨_, _, _, unreported, _⟩
    apply unreported
    apply sound.accounted.failures_subset
    rw [same]
    exact mem_map_of_mem (mem_filter.mpr ⟨isListed, decide_eq_true isOwn⟩)
  · intro first isFirst second isSecond firstCloses secondCloses
    rcases mem_ofSession_append_singleton isFirst with firstOld | ⟨isOwn, _, rfl⟩
    · rcases mem_ofSession_append_singleton isSecond with secondOld | ⟨isOwn, _, rfl⟩
      · exact sound.closes first firstOld second secondOld firstCloses secondCloses
      · rcases careful isOwn with ⟨_, _, _, _, once⟩
        exact absurd firstCloses (once secondCloses first firstOld)
    · rcases mem_ofSession_append_singleton isSecond with secondOld | ⟨_, _, rfl⟩
      · rcases careful isOwn with ⟨_, _, _, _, once⟩
        exact absurd secondCloses (once firstCloses second secondOld)
      · rfl
  · intro content isContent
    rcases mem_ofSession_append_singleton isContent with isOld | ⟨isOwn, _, rfl⟩
    · exact sound.xids content isOld
    · exact (careful isOwn).2.1

theorem CarefulSound.next (positive : 0 < parallel) (sound : history.CarefulSound parallel session)
    (careful : history.Careful session call) (moves : history.next parallel call = some after) :
    after.CarefulSound parallel session := by
  have laneSound := sound.laneSound.next careful.separate moves
  have accounted : (after.lane parallel session).Accounted isWrite fst := by
    rcases sound.lane_next positive careful moves with same | ⟨event, _, proper, laneStep⟩
    · rw [same]
      exact sound.accounted
    · exact sound.accounted.step laneStep proper
  cases call with
  | push request =>
    rcases sound.push careful with ⟨fits, closes, xids⟩
    rw [next_push moves] at laneSound accounted ⊢
    exact ⟨laneSound, accounted, fits, closes, xids⟩
  | commit request =>
    rw [next_commit moves] at laneSound accounted ⊢
    exact ⟨laneSound, accounted, sound.fits, sound.closes, sound.xids⟩
  | onError error =>
    rw [(next_onError moves).2] at laneSound accounted ⊢
    refine ⟨laneSound, accounted, ?_, sound.closes, sound.xids⟩
    intro other isListed isOwn
    rcases mem_append.mp isListed with isOld | isNew
    · exact sound.fits other isOld isOwn
    · cases mem_singleton.mp isNew
      exact careful isOwn
  | run surroundings =>
    rcases next_run moves with ⟨processor, handed, transition, rfl⟩
    refine ⟨laneSound, accounted, ?_, ?_, ?_⟩
    · rw [hand_processor, hand_pushed]
      intro error isListed
      exact sound.fits error (errorRequests_transition transition isListed)
    · rw [hand_pushed]
      exact sound.closes
    · rw [hand_pushed]
      exact sound.xids

theorem carefulSound_start : ({} : ProcessorHistory).CarefulSound parallel session where
  laneSound := laneSound_start
  accounted := accounted_start
  fits := by simp
  closes := by simp
  xids := by simp

/-- A write of the session is committed when those it has sent before are committed or reported. -/
def InTurn (session : Int64) (history : ProcessorHistory) : ProcessorCall → Prop
  | .commit request => request.sessionId = session → request.request.Ordinary →
      ∀ earlier, isWrite earlier = true →
        [earlier, request.content].Sublist (ofSession session history.pushed) →
          earlier ∈ ofSession session history.committed ∨
            earlier.1 ∈ failuresOf session history.reported
  | .push _ | .onError _ | .run _ => True

/-- Everyone in `sessions` is careful and has its writes committed in turn. -/
def AllInTurn (sessions : Int64 → Prop) (history : ProcessorHistory) (call : ProcessorCall) :
    Prop := ∀ session, sessions session → history.Careful session call ∧ history.InTurn session call

theorem InTurn.lane (inTurn : history.InTurn session call) (sees : Sees session call event) :
    (history.lane parallel session).InTurn isWrite fst event := by
  cases sees with
  | commit isOwn ordinary => exact inTurn isOwn ordinary
  | push | onError | run => trivial

theorem cleared_next (positive : 0 < parallel) (sound : history.CarefulSound parallel session)
    (cleared : (history.lane parallel session).Cleared isWrite fst)
    (careful : history.Careful session call) (inTurn : history.InTurn session call)
    (moves : history.next parallel call = some after) :
    (after.lane parallel session).Cleared isWrite fst := by
  rcases sound.lane_next positive careful moves with same | ⟨event, sees, proper, laneStep⟩
  · rw [same]
    exact cleared
  · exact cleared.step sound.accounted laneStep proper (inTurn.lane sees)

/-- No request waits with the `xid` of a write of its session that is applied. -/
theorem applied_not_pending (positive : 0 < parallel) {sessions : Int64 → Prop}
    (reached : ReachableBy (next parallel) (AllInTurn sessions) {} history)
    {request : RequestForSession} (isSession : sessions request.sessionId)
    (isApplied : request ∈ history.processed) (ordinary : request.request.Ordinary)
    (writes : request.request.isReadRequest = false)
    (iterated : history.processor.stage = .waiting) :
    ∀ entry ∈ history.processor.pending request.sessionId, entry.xid ≠ request.xid := by
  have sound : history.CarefulSound parallel request.sessionId ∧
      (history.lane parallel request.sessionId).Cleared isWrite fst := by
    refine ReachableBy.invariant
      (fun state => state.CarefulSound parallel request.sessionId ∧
        (state.lane parallel request.sessionId).Cleared isWrite fst) ?_ ?_ reached
    · refine ⟨carefulSound_start, ?_⟩
      constructor <;> simp [lane, waitingOf]
    · rintro before after call ⟨isSound, isCleared⟩ allowed moves
      rcases allowed request.sessionId isSession with ⟨careful, inTurn⟩
      exact ⟨isSound.next positive careful moves,
        cleared_next positive isSound isCleared careful inTurn moves⟩
  rcases sound with ⟨sound, cleared⟩
  intro entry isPending same
  have applied : request.content ∈ (history.lane parallel request.sessionId).applied :=
    mem_map_of_mem (mem_filter.mpr ⟨isApplied, decide_eq_true ⟨rfl, ordinary⟩⟩)
  have waits : entry.content ∈ (history.lane parallel request.sessionId).waiting ++
      (history.lane parallel request.sessionId).queued := by
    apply mem_append_left
    simp only [lane, waitingOf, iterated]
    exact mem_map_of_mem isPending
  have isRequest : entry.content = request.content :=
    sound.accounted.eq_of_key (sound.accounted.remains.subset waits)
      (sound.accounted.applied_sent _ applied) same
  refine cleared.gone request.content applied ?_ (isRequest ▸ waits)
  simp [isWrite, RequestForSession.content, writes]

def sampleRemove (xid : Int32) : RequestForSession where
  sessionId := 1
  xid := xid
  request := .single (.remove { path := ascii "/a" })

def waitingCalls : List ProcessorCall :=
  [.push (sampleRemove 1), .push (sampleRemove 2), .commit (sampleRemove 1)] ++
    replicate 9 (.run (.sample true))

/-- Of two writes the first is committed and applied; the second is pending. -/
theorem applied_not_pending_waitingCalls :
    ∃ history, ReachableBy (next 1) (AllInTurn (· = 1)) {} history ∧
      (history.processed.map (·.xid) = [1] ∧ (history.processor.pending 1).map (·.xid) = [2]) ∧
      history.processor.stage = .waiting ∧
      ∀ request ∈ history.processed, request.sessionId = 1 → request.request.Ordinary →
        request.request.isReadRequest = false →
          ∀ entry ∈ history.processor.pending request.sessionId, entry.xid ≠ request.xid := by
  have runs : ∀ call ∈ replicate 9 (ProcessorCall.run (.sample true)), ∀ history,
      AllInTurn (· = 1) history call := by
    intro call isRun history session _
    rw [eq_of_mem_replicate isRun]
    exact ⟨rfl, trivial⟩
  have meets : runMeets (next 1) (AllInTurn (· = 1)) {} waitingCalls := by
    refine ⟨?_, ?_, ?_, runMeets_of_forall_mem runs _⟩
    · rintro session rfl
      exact ⟨fun _ => ⟨by decide, by decide, by decide, by decide, nofun⟩, trivial⟩
    · rintro session rfl
      exact ⟨fun _ => ⟨by decide, by decide, by decide, by decide, nofun⟩, trivial⟩
    · rintro session rfl
      refine ⟨fun _ _ => ⟨mem_cons_self, rfl, not_mem_nil⟩, fun _ _ earlier _ inOrder => ?_⟩
      have same := congrArg (List.map fst) (inOrder.eq_of_length rfl)
      exact absurd (cons.inj (cons.inj same).2).1 (by decide)
  refine exists_reached_of (fun history =>
    (history.processed.map (·.xid) = [1] ∧ (history.processor.pending 1).map (·.xid) = [2]) ∧
      history.processor.stage = .waiting) waitingCalls ⟨meets, by decide +kernel⟩ ?_
  rintro history reached ⟨isApplied, iterated⟩
  refine ⟨isApplied, iterated, fun request isProcessed isSession ordinary writes => ?_⟩
  exact applied_not_pending Nat.one_pos reached isSession isProcessed ordinary writes iterated

/-- Sessions use distinct `xid`s, what is committed or reported was pushed before, and session 1
stays local. -/
def DistinctXids (history : ProcessorHistory) : ProcessorCall → Prop
  | .push request => request.getRequestId ∉ history.pushed.map (·.getRequestId)
  | .commit request => request.getRequestId ∈ history.pushed.map (·.getRequestId)
  | .onError error => error.getRequestId ∈ history.pushed.map (·.getRequestId)
  | .run surroundings => surroundings.isLocalSession 1 = true

instance (history : ProcessorHistory) : (call : ProcessorCall) →
    Decidable (history.DistinctXids call)
  | .push _ => inferInstanceAs (Decidable (_ ∉ _))
  | .commit _ | .onError _ => inferInstanceAs (Decidable (_ ∈ _))
  | .run _ => inferInstanceAs (Decidable (_ = _))

/-- The second of two writes is committed and applied while the first, which was lost on the way,
is not reported yet. -/
def overtakingRun : List ProcessorCall :=
  [.push (sampleRemove 1), .push (sampleRemove 2), .commit (sampleRemove 2)] ++
    replicate 9 (.run (.sample true)) ++
    [.onError { timeout := false, sessionId := 1, xid := 1, opnum := .remove }] ++
    replicate 9 (.run (.sample true))

/-- The write stays in the pending queue though it is applied, and nothing is left to be done. -/
theorem overtakingRun_blocks :
    ∃ history, ReachableBy (next 1) DistinctXids {} history ∧
      history.processor.stage = .waiting ∧ history.processed.map (·.getRequestId) = [⟨1, 2⟩] ∧
      (history.processor.pending 1).map (·.getRequestId) = [⟨1, 2⟩] ∧
      history.processor.committedQueue.length = 0 ∧ history.processor.errorRequests.length = 0 := by
  exact exists_reached overtakingRun (by decide +kernel)

end ProcessorHistory

end RaftKeeper
