import RaftKeeper.Processor.CommitOrder
import RaftKeeper.Processor.Keeper
import RaftKeeper.Processor.SessionFailures

/-!
# At most one answer to a request

The responses to a request come from the store, when it is applied, and from the processor, when
it has failed or the leader is gone. As long as no request is both reported as failed and
committed, each request of a local session is answered at most once.
-/

namespace RaftKeeper

open List ProcessorHistory ResponseForSession

def ResponseForSession.getRequestId (response : ResponseForSession) : RequestId :=
  ⟨response.sessionId, response.xid⟩

def ResponseForSession.isWatch (response : ResponseForSession) : Bool :=
  match response.response.payload with
  | .watch .. => true
  | _ => false

/-- The response answers the request with this id and is no watch event. -/
def ResponseForSession.isAnswerTo (id : RequestId) (response : ResponseForSession) : Bool :=
  !response.isWatch && response.getRequestId = id

theorem Call.Answers.countP_le {call : Call} {responses : List ResponseForSession}
    (answers : call.Answers responses) (id : RequestId) :
    responses.countP (·.isAnswerTo id) ≤ [call.request.getRequestId].count id := by
  rcases answers with ⟨events, reply, rfl, seess, isReply⟩
  have noEvent : events.countP (·.isAnswerTo id) = 0 := by
    rw [countP_eq_zero]
    intro response isMember
    rcases seess response isMember with ⟨event, path, session, rfl⟩
    simp [isAnswerTo, isWatch, WatchManager.watchResponse]
  rw [countP_append, noEvent, Nat.zero_add]
  rcases isReply with rfl | ⟨zxid, response, createTime, rfl⟩
  · exact Nat.zero_le _
  · by_cases same : call.request.getRequestId = id
    · have bound := @countP_le_length _ (fun other => isAnswerTo id other)
        [call.answer zxid response createTime]
      simpa [same] using bound
    · have other : (call.answer zxid response createTime).getRequestId ≠ id := same
      simp [isAnswerTo, other]

def Handed.processed : Handed → List RequestForSession
  | .process request => [request]
  | .nothing | .respond _ => []

def Handed.responded : Handed → List ResponseForSession
  | .respond response => [response]
  | .nothing | .process _ => []

theorem ProcessorHistory.hand_processed (history : ProcessorHistory) (handed : Handed) :
    (history.hand handed).processed = history.processed ++ handed.processed := by
  cases handed <;> simp [hand, Handed.processed]

theorem ProcessorHistory.hand_responded (history : ProcessorHistory) (handed : Handed) :
    (history.hand handed).responded = history.responded ++ handed.responded := by
  cases handed <;> simp [hand, Handed.responded]

theorem Handed.serve_countP_le {platform : Platform} {env : Environment}
    {store after : KeeperStore} {handed : Handed} {answers : List ResponseForSession}
    (serves : handed.serve platform env store = some (after, answers)) (id : RequestId) :
    answers.countP (·.isAnswerTo id) ≤ (handed.processed.map (·.getRequestId)).count id +
      (handed.responded.map (·.getRequestId)).count id := by
  cases handed with
  | nothing =>
    cases serves
    simp
  | respond response =>
    cases serves
    by_cases same : response.getRequestId = id
    · have bound := @countP_le_length _ (fun other => isAnswerTo id other)
        [response]
      simpa [responded, processed, same] using bound
    · simp [isAnswerTo, same]
  | process request =>
    simp only [serve] at serves
    split at serves
    next returns =>
      cases serves
      exact (KeeperStore.processRequest_answers returns).countP_le id
    · split at serves
      · cases serves
        simp
      · cases serves
    · cases serves
    · cases serves

namespace RequestProcessor

variable {parallel : ℕ} {surroundings : Surroundings} {processor after : RequestProcessor}
  {response : ResponseForSession} {request : RequestForSession}

theorem applyRequest_eq_respond (responds : applyRequest surroundings request = .respond response) :
    request.request.isReadRequest = true ∧ response.getRequestId = request.getRequestId := by
  unfold applyRequest at responds
  split at responds
  next isRefused =>
    cases responds
    exact ⟨(Bool.and_eq_true_iff.mp isRefused).1, rfl⟩
  · cases responds

theorem applyRequest_eq_process {processed : RequestForSession}
    (processes : applyRequest surroundings request = .process processed) : processed = request := by
  unfold applyRequest at processes
  split at processes
  · cases processes
  · cases processes
    rfl

/-- A response to a request that waits, to a failure that was reported or to an Auth. -/
def Accounts (processor : RequestProcessor) (response : ResponseForSession) : Prop :=
  (∃ waiting ∈ processor.waitingOf response.sessionId, waiting.xid = response.xid) ∨
    (∃ error ∈ processor.errorRequests, error.getRequestId = response.getRequestId) ∨
    response.xid = 0

theorem respond_errorStep {left : ℕ} (stands : processor.stage = .failing (left + 1))
    (owned : ∀ {session waiting}, waiting ∈ processor.pending session → waiting.sessionId = session)
    (fails : processor.errorStep surroundings left = some (after, .respond response)) :
    processor.Accounts response := by
  rcases errorStep_cases fails with ⟨error, rest, _, isErrors, _, isCase⟩
  have isListed : error ∈ processor.errorRequests := by simp [isErrors]
  rcases isCase with ⟨_, _, isResponse⟩ | ⟨_, _, _, isResponse⟩ | ⟨_, _, _, isResponse⟩
  · cases isResponse
    exact .inr (.inl ⟨error, isListed, rfl⟩)
  · cases isResponse
  · cases found : (processor.findErrorRequest surroundings.now error).1 with
    | none => simp [found] at isResponse
    | some waiting =>
      simp only [found, Handed.respond.injEq] at isResponse
      subst isResponse
      rcases (findErrorRequest_frame surroundings.now error).2 found with rfl | isPending
      · exact .inr (.inr rfl)
      · refine .inl ⟨waiting, ?_, rfl⟩
        have sameSession : (waiting.failure error.code).sessionId = error.sessionId :=
          owned isPending
        rw [waitingOf, stands, sameSession]
        exact isPending

theorem respond_transition
    (moves : Transition parallel surroundings processor after (.respond response))
    (writes : ∀ committed ∈ processor.committedQueue, committed.sessionId = response.sessionId →
      committed.request.isReadRequest = false)
    (owned : ∀ {session waiting}, waiting ∈ processor.pending session →
      waiting.sessionId = session) : processor.Accounts response := by
  generalize isResponse : Handed.respond response = handed at moves
  have notCommitted : ∀ {request applied : RequestForSession} {rest : List RequestForSession},
      processor.committedQueue = request :: rest → applied.request = request.request →
        applied.sessionId = request.sessionId →
          applyRequest surroundings applied ≠ .respond response := by
    intro request applied rest first sameRequest sameSession responds
    rcases applyRequest_eq_respond responds with ⟨isRead, sameId⟩
    have sessionId : response.sessionId = applied.sessionId := congrArg RequestId.sessionId sameId
    have isWrite := writes request (first ▸ mem_cons_self)
      (sameSession.symm.trans sessionId.symm)
    rw [sameRequest, isWrite] at isRead
    cases isRead
  cases moves with
  | @read runner committed errors session rest request others stands first isRead =>
    have sameId := (applyRequest_eq_respond isResponse.symm).2
    have isPending : request ∈ processor.pending session := first ▸ mem_cons_self
    have sessionId : response.sessionId = session :=
      (congrArg RequestId.sessionId sameId).trans (owned isPending)
    refine .inl ⟨request, ?_, (congrArg RequestId.xid sameId).symm⟩
    rw [waitingOf, stands]
    exact sessionId ▸ isPending
  | applySession stands first | applyRemote stands first | applyAuth stands first =>
    exact absurd isResponse.symm (notCommitted first rfl rfl)
  | applyLocal stands first _ _ _ should =>
    rcases shouldProcess_eq_some should with ⟨createTime, rfl⟩
    exact absurd isResponse.symm (notCommitted first rfl rfl)
  | fail stands fails =>
    subst isResponse
    exact respond_errorStep stands owned fails
  | _ => cases isResponse

theorem unapplied_subset : processor.unapplied ⊆ processor.committedQueue := by
  unfold unapplied
  split
  · exact (tail_sublist _).subset
  · exact Subset.refl _

theorem process_transition
    (moves : Transition parallel surroundings processor after (.process request)) :
    request.request.isReadRequest = true ∨
      ∃ committed ∈ processor.committedQueue, committed.logged = request.logged := by
  generalize isProcessed : Handed.process request = handed at moves
  cases committedStep_transition moves with
  | none _ onlyReads => exact .inl (onlyReads isProcessed.symm)
  | @first committed applied isFirst sameLogged =>
    refine .inr ⟨committed, ?_, ?_⟩
    · have isUnapplied : committed ∈ processor.unapplied := isFirst ▸ mem_cons_self
      exact unapplied_subset isUnapplied
    · rw [applyRequest_eq_process isProcessed.symm, sameLogged]

end RequestProcessor

namespace ProcessorHistory

variable {parallel : ℕ} {session : Int64} {history after : ProcessorHistory}

open RequestProcessor

/-- No request of the session is both committed and reported as failed, and Auth and the session
requests have `xid`s of their own. -/
def Exclusive (session : Int64) (history : ProcessorHistory) : ProcessorCall → Prop
  | .commit request => request.sessionId = session →
      (request.request.Ordinary → request.xid ∉ failuresOf session history.reported) ∧
        (¬ request.request.Ordinary → request.xid ∈ reservedXids)
  | .onError error => error.sessionId = session →
      error.xid ∉ (ofSession session history.committed).map Prod.fst
  | .push _ | .run _ => True

/-- No request of the session is both committed and reported, and none is answered twice. -/
structure ExclusiveSound (parallel : ℕ) (session : Int64) (history : ProcessorHistory) : Prop where
  carefulSound : history.CarefulSound parallel session
  single : (history.lane parallel session).Single isWrite Prod.fst
  answered : ∀ xid ∈ answersOf session history.responded,
    xid ∈ (ofSession session history.pushed).map Prod.fst ∨
      xid ∈ failuresOf session history.reported ∨ xid = 0
  queued : ∀ request ∈ history.processor.committedQueue, request.sessionId = session →
    ¬ request.request.Ordinary → request.xid ∈ reservedXids
  processed : ∀ request ∈ history.processed, request.sessionId = session →
    ¬ request.request.Ordinary → request.xid ∈ reservedXids

variable {call : ProcessorCall}

theorem ExclusiveSound.exclusive (sound : history.ExclusiveSound parallel session)
    (careful : history.Careful session call) (exclusive : history.Exclusive session call)
    {event : Lane.Event (Int32 × Request) Int32} (sees : Sees session call event) :
    (history.lane parallel session).Exclusive Prod.fst event := by
  cases sees with
  | @push request isOwn =>
    rcases careful isOwn with ⟨_, unreserved, fresh, unreported, _⟩
    intro isAnswered
    rcases sound.answered request.xid isAnswered with isSent | isReported | isZero
    · exact fresh isSent
    · exact unreported isReported
    · exact unreserved (isZero ▸ mem_cons_self)
  | commit isOwn ordinary => exact (exclusive isOwn).1 ordinary
  | onError isOwn =>
    intro content isConfirmed same
    exact exclusive isOwn (same ▸ mem_map_of_mem isConfirmed)
  | run => trivial

variable {surroundings : Surroundings}

theorem ExclusiveSound.answered_run {processor : RequestProcessor} {handed : Handed}
    (sound : history.ExclusiveSound parallel session)
    (moves : Transition parallel surroundings history.processor processor handed) :
    ∀ xid ∈ answersOf session handed.responded,
      xid ∈ (ofSession session history.pushed).map Prod.fst ∨
        xid ∈ failuresOf session history.reported ∨ xid = 0 := by
  cases handed with
  | nothing | process request => exact fun _ isAnswer => absurd isAnswer not_mem_nil
  | respond response =>
    intro xid isAnswer
    rcases mem_map.mp isAnswer with ⟨answer, isMember, rfl⟩
    rcases mem_filter.mp isMember with ⟨isResponse, isOwn⟩
    cases mem_singleton.mp isResponse
    have own : response.sessionId = session := of_decide_eq_true isOwn
    have laneSound := sound.carefulSound.laneSound
    have writes : ∀ committed ∈ history.processor.committedQueue,
        committed.sessionId = response.sessionId → committed.request.isReadRequest = false := by
      intro committed isQueued isSame
      by_contra isRead
      have isRead : committed.request.isReadRequest = true := by simpa using isRead
      have isWrite := laneSound.writes isQueued (isSame.trans own) (.of_isRead isRead)
      rw [isWrite] at isRead
      cases isRead
    rcases respond_transition moves writes (fun isPending => (laneSound.owned isPending).1) with
      ⟨waiting, waits, same⟩ | ⟨error, isListed, same⟩ | isZero
    · refine .inl ?_
      rw [← same, ← own]
      apply mem_map.mpr
      refine ⟨waiting.content, ?_, rfl⟩
      rw [own] at waits ⊢
      exact sound.carefulSound.accounted.remains.subset
        (mem_append_left _ (mem_map_of_mem waits))
    · refine .inr (.inl ?_)
      apply sound.carefulSound.accounted.failures_subset
      have sameSession : error.sessionId = session :=
        (congrArg RequestId.sessionId same).trans own
      have sameXid : error.xid = response.xid := congrArg RequestId.xid same
      exact sameXid ▸ mem_map_of_mem
        (mem_filter.mpr ⟨isListed, decide_eq_true sameSession⟩)
    · exact .inr (.inr isZero)

theorem ExclusiveSound.run (sound : history.ExclusiveSound parallel session)
    (carefulSound : after.CarefulSound parallel session)
    (single : (after.lane parallel session).Single isWrite Prod.fst)
    (moves : history.next parallel (.run surroundings) = some after) :
    after.ExclusiveSound parallel session := by
  rcases next_run moves with ⟨processor, handed, transition, rfl⟩
  refine ⟨carefulSound, single, ?_, ?_, ?_⟩
  · rw [hand_responded, answersOf_append, hand_pushed, hand_reported]
    intro xid isAnswer
    rcases mem_append.mp isAnswer with isOld | isNew
    · exact sound.answered xid isOld
    · exact sound.answered_run transition xid isNew
  · rw [hand_processor]
    intro request isQueued
    exact sound.queued request (committedQueue_transition transition isQueued)
  · rw [hand_processed]
    intro request isProcessed isOwn notOrdinary
    rcases mem_append.mp isProcessed with isOld | isNew
    · exact sound.processed request isOld isOwn notOrdinary
    · cases handed with
      | nothing | respond response => cases isNew
      | process applied =>
        cases mem_singleton.mp isNew
        rcases process_transition transition with isRead | ⟨committed, isQueued, same⟩
        · exact absurd (.of_isRead isRead) notOrdinary
        · have sameRequest : committed.logged.request = request.logged.request := by rw [same]
          have sameXid : committed.logged.xid = request.logged.xid := by rw [same]
          have sameSession : committed.logged.sessionId = request.logged.sessionId := by
            rw [same]
          exact sameXid ▸ sound.queued committed isQueued (sameSession.trans isOwn)
            (fun ordinary => notOrdinary (sameRequest ▸ ordinary))

theorem ExclusiveSound.next (positive : 0 < parallel)
    (sound : history.ExclusiveSound parallel session) (careful : history.Careful session call)
    (exclusive : history.Exclusive session call) (moves : history.next parallel call = some after) :
    after.ExclusiveSound parallel session := by
  have carefulSound := sound.carefulSound.next positive careful moves
  have single : (after.lane parallel session).Single isWrite Prod.fst := by
    rcases sound.carefulSound.lane_next positive careful moves with
      same | ⟨event, sees, proper, laneStep⟩
    · rw [same]
      exact sound.single
    · exact sound.single.step sound.carefulSound.accounted laneStep proper
        (sound.exclusive careful exclusive sees)
  cases call with
  | push request =>
    rw [next_push moves] at carefulSound single ⊢
    refine ⟨carefulSound, single, ?_, sound.queued, sound.processed⟩
    intro xid isAnswer
    rcases sound.answered xid isAnswer with isSent | isOther
    · refine .inl ?_
      rw [ofSession_append, map_append]
      exact mem_append_left _ isSent
    · exact .inr isOther
  | commit request =>
    rw [next_commit moves] at carefulSound single ⊢
    refine ⟨carefulSound, single, sound.answered, ?_, sound.processed⟩
    intro other isQueued isOwn notOrdinary
    rcases mem_append.mp isQueued with isOld | isNew
    · exact sound.queued other isOld isOwn notOrdinary
    · cases mem_singleton.mp isNew
      exact (exclusive isOwn).2 notOrdinary
  | onError error =>
    rw [(next_onError moves).2] at carefulSound single ⊢
    refine ⟨carefulSound, single, ?_, sound.queued, sound.processed⟩
    intro xid isAnswer
    rcases sound.answered xid isAnswer with isSent | isReported | isZero
    · exact .inl isSent
    · refine .inr (.inl ?_)
      rw [failuresOf_append]
      exact mem_append_left _ isReported
    · exact .inr (.inr isZero)
  | run surroundings => exact sound.run carefulSound single moves

theorem exclusiveSound_start : ({} : ProcessorHistory).ExclusiveSound parallel session where
  carefulSound := carefulSound_start
  single := by constructor <;> simp [lane, Lane.answers, waitingOf, answersOf]
  answered := by simp [answersOf]
  queued := by simp
  processed := by simp

theorem mem_pushed_next {request : RequestForSession}
    (moves : history.next parallel call = some after) (isPushed : request ∈ after.pushed) :
    request ∈ history.pushed ∨ call = .push request := by
  cases call with
  | push other =>
    rw [next_push moves] at isPushed
    rcases mem_append.mp isPushed with isOld | isNew
    · exact .inl isOld
    · exact .inr (congrArg _ (mem_singleton.mp isNew).symm)
  | commit other =>
    rw [next_commit moves] at isPushed
    exact .inl isPushed
  | onError error =>
    rw [(next_onError moves).2] at isPushed
    exact .inl isPushed
  | run surroundings =>
    rcases next_run moves with ⟨processor, handed, _, rfl⟩
    rw [hand_pushed] at isPushed
    exact .inl isPushed

theorem ExclusiveSound.count_le (sound : history.ExclusiveSound parallel session) {xid : Int32}
    (isSent : xid ∈ (ofSession session history.pushed).map Prod.fst) :
    (history.processed.map (·.getRequestId)).count ⟨session, xid⟩ +
      (history.responded.map (·.getRequestId)).count ⟨session, xid⟩ ≤ 1 := by
  rcases mem_map.mp isSent with ⟨content, contentSent, rfl⟩
  have unreserved := sound.carefulSound.xids content contentSent
  have processed : (history.processed.map (·.getRequestId)).count ⟨session, content.1⟩ =
      ((ofSession session history.processed).map Prod.fst).count content.1 := by
    rw [ofSession, map_map, count, count, countP_map, countP_map, countP_filter]
    apply countP_congr
    intro request isProcessed
    have ordinary : request.sessionId = session → request.xid = content.1 →
        request.request.Ordinary := by
      intro isOwn same
      by_contra notOrdinary
      exact unreserved (same ▸ sound.processed request isProcessed isOwn notOrdinary)
    simp only [Function.comp_apply, RequestForSession.getRequestId, RequestForSession.content,
      beq_iff_eq, RequestId.mk.injEq, Bool.and_eq_true, decide_eq_true_eq]
    constructor
    · rintro ⟨isOwn, same⟩
      exact ⟨same, isOwn, ordinary isOwn same⟩
    · rintro ⟨same, isOwn, _⟩
      exact ⟨isOwn, same⟩
  have responded : (history.responded.map (·.getRequestId)).count ⟨session, content.1⟩ =
      (answersOf session history.responded).count content.1 := by
    rw [answersOf, count, count, countP_map, countP_map, countP_filter]
    apply countP_congr
    intro response _
    simp [getRequestId, and_comm]
  rw [processed, responded, ← count_append]
  exact sound.single.single content contentSent

end ProcessorHistory

namespace Keeper

variable {platform : Platform} {parallel : ℕ} {keeper after : Keeper} {call : ProcessorCall}
  {env : Environment}

theorem countP_next {id : RequestId}
    (bound : keeper.responses.countP (·.isAnswerTo id) ≤
      (keeper.history.processed.map (·.getRequestId)).count id +
        (keeper.history.responded.map (·.getRequestId)).count id)
    (moves : keeper.next platform parallel (call, env) = some after) :
    after.responses.countP (·.isAnswerTo id) ≤
      (after.history.processed.map (·.getRequestId)).count id +
        (after.history.responded.map (·.getRequestId)).count id := by
  by_cases isRun : ∃ surroundings, call = .run surroundings
  · rcases isRun with ⟨surroundings, rfl⟩
    rcases next_run moves with ⟨processor, handed, store, answers, _, serves, rfl⟩
    have more := Handed.serve_countP_le serves id
    simp only [hand_processed, hand_responded, map_append, count_append, countP_append]
    omega
  · rcases next_call (fun surroundings same => isRun ⟨surroundings, same⟩) moves with
      ⟨history, isNext, rfl⟩
    cases call with
    | push request =>
      rw [next_push isNext]
      exact bound
    | commit request =>
      rw [next_commit isNext]
      exact bound
    | onError error =>
      rw [(next_onError isNext).2]
      exact bound
    | run surroundings => exact absurd ⟨surroundings, rfl⟩ isRun

/-- Everyone in `sessions` is careful, and none of their requests is both committed and reported. -/
def AllExclusive (sessions : Int64 → Prop) (keeper : Keeper)
    (input : ProcessorCall × Environment) : Prop :=
  ∀ session, sessions session →
    keeper.history.Careful session input.1 ∧ keeper.history.Exclusive session input.1

/-- No request of a local session is answered twice. -/
theorem answered_at_most_once (positive : 0 < parallel) {sessions : Int64 → Prop}
    {start : KeeperStore}
    (reached : ReachableBy (next platform parallel) (AllExclusive sessions) { store := start }
      keeper)
    {request : RequestForSession} (isPushed : request ∈ keeper.history.pushed)
    (isSession : sessions request.sessionId) :
    keeper.responses.countP (·.isAnswerTo request.getRequestId) ≤ 1 := by
  have sound : keeper.history.ExclusiveSound parallel request.sessionId ∧
      (∀ other ∈ keeper.history.pushed, sessions other.sessionId → other.request.Ordinary) ∧
      keeper.responses.countP (·.isAnswerTo request.getRequestId) ≤
        (keeper.history.processed.map (·.getRequestId)).count request.getRequestId +
          (keeper.history.responded.map (·.getRequestId)).count request.getRequestId := by
    refine ReachableBy.invariant
      (fun state => state.history.ExclusiveSound parallel request.sessionId ∧
        (∀ other ∈ state.history.pushed, sessions other.sessionId → other.request.Ordinary) ∧
        state.responses.countP (·.isAnswerTo request.getRequestId) ≤
          (state.history.processed.map (·.getRequestId)).count request.getRequestId +
            (state.history.responded.map (·.getRequestId)).count request.getRequestId)
      ⟨exclusiveSound_start, by simp, by simp⟩ ?_ reached
    rintro before after ⟨call, env⟩ ⟨isSound, ordinary, bound⟩ allowed moves
    rcases allowed request.sessionId isSession with ⟨careful, exclusive⟩
    have isNext := next_history moves
    refine ⟨isSound.next positive careful exclusive isNext, ?_, countP_next bound moves⟩
    intro other isPushed otherSession
    rcases mem_pushed_next isNext isPushed with isOld | rfl
    · exact ordinary other isOld otherSession
    · exact ((allowed other.sessionId otherSession).1 rfl).1
  rcases sound with ⟨isSound, ordinary, bound⟩
  have isSent : request.xid ∈
      (ofSession request.sessionId keeper.history.pushed).map Prod.fst := by
    apply mem_map.mpr
    refine ⟨request.content, ?_, rfl⟩
    exact mem_map_of_mem (mem_filter.mpr
      ⟨isPushed, decide_eq_true ⟨rfl, ordinary request isPushed isSession⟩⟩)
  exact bound.trans (isSound.count_le isSent)

def sampleStore : KeeperStore := (KeeperStore.sample.next .sample .sampleSession).get (by decide)

def sampleCreate : RequestForSession where
  sessionId := 1
  xid := 1
  request := .single (.create { path := ascii "/a" })

def failedCreate : RequestForSession where
  sessionId := 1
  xid := 2
  request := .single (.create { path := ascii "/b" })

def failingCalls : List (ProcessorCall × Environment) :=
  [(.push sampleCreate, .sorted), (.push failedCreate, .sorted), (.commit sampleCreate, .sorted),
    (.onError { timeout := true, sessionId := 1, xid := 2, opnum := .create }, .sorted)] ++
    replicate 24 (.run (.sample true), .sorted)

/-- Of two Creates one is committed and the other reported as failed; both are answered. -/
theorem answered_at_most_once_failingCalls :
    ∃ keeper, ReachableBy (next .sample 1) (AllExclusive (· = 1)) { store := sampleStore } keeper ∧
      keeper.responses.map (·.response.error) = [.zok, .zoperationtimeout] ∧
      ∀ request ∈ keeper.history.pushed, request.sessionId = 1 →
        keeper.responses.countP (·.isAnswerTo request.getRequestId) ≤ 1 := by
  have runs : ∀ input ∈ replicate 24 (ProcessorCall.run (.sample true), Environment.sorted),
      ∀ keeper, AllExclusive (· = 1) keeper input := by
    intro input isRun keeper session _
    rw [eq_of_mem_replicate isRun]
    exact ⟨rfl, trivial⟩
  have meets : runMeets (next .sample 1) (AllExclusive (· = 1)) { store := sampleStore }
      failingCalls := by
    refine ⟨?_, ?_, ?_, ?_, runMeets_of_forall_mem runs _⟩
    · rintro session rfl
      exact ⟨fun _ => ⟨by decide, by decide, by decide, by decide, nofun⟩, trivial⟩
    · rintro session rfl
      exact ⟨fun _ => ⟨by decide, by decide, by decide, by decide, nofun⟩, trivial⟩
    · rintro session rfl
      refine ⟨fun _ _ => ⟨mem_cons_self, rfl, not_mem_nil⟩, fun _ => ⟨fun _ => not_mem_nil, ?_⟩⟩
      exact fun notOrdinary => absurd (by decide) notOrdinary
    · rintro session rfl
      refine ⟨fun _ => .inl ⟨failedCreate.content, ?_, rfl, rfl⟩, fun _ => by decide⟩
      exact mem_cons_of_mem _ mem_cons_self
  refine exists_reached_of (·.responses.map (·.response.error) = [.zok, .zoperationtimeout])
    failingCalls ⟨meets, by decide +kernel⟩ ?_
  intro keeper reached answers
  refine ⟨answers, fun request isPushed isSession => ?_⟩
  exact answered_at_most_once Nat.one_pos reached isPushed isSession

/-- The Create is reported as timed out and then committed after all. -/
def timedOutRun : List ProcessorCall :=
  [.push sampleCreate, .onError { timeout := true, sessionId := 1, xid := 1, opnum := .create }] ++
    replicate 9 (.run (.sample true)) ++ [.commit sampleCreate] ++
    replicate 9 (.run (.sample true))

/-- The client is told that its request has timed out, and then that it has succeeded. -/
theorem timedOutRun_answers_twice :
    ∃ keeper, ReachableBy (next .sample 1) (fun keeper input => keeper.history.DistinctXids input.1)
        { store := sampleStore } keeper ∧
      keeper.responses.map (fun response => (response.getRequestId, response.response.error)) =
        [(⟨1, 1⟩, .zoperationtimeout), (⟨1, 1⟩, .zok)] := by
  exact exists_reached (timedOutRun.map fun call => (call, .sorted)) (by decide +kernel)

end Keeper

end RaftKeeper
