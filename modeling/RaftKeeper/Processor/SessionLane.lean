import Mathlib.Data.Nat.SuccPred
import Mathlib.Data.List.Find
import RaftKeeper.Lib.Lane
import RaftKeeper.Processor.Transition

/-!
# What a session sees of the processor

All requests of a local session reach the processor through `push`, its writes a second
time through `commit` or `onError`. `lane` is what one session sees of the processor, and
every call and every step is a step of that lane or leaves it as it is; what the other
sessions do does not matter.
-/

namespace RaftKeeper

open List Prod RequestForSession RequestProcessor

def failuresOf (session : Int64) (errors : List ErrorRequest) : List Int32 :=
  (errors.filter fun error => error.sessionId = session).map (·.xid)

def answersOf (session : Int64) (responses : List ResponseForSession) : List Int32 :=
  (responses.filter fun response => response.sessionId = session).map (·.xid)

@[simp]
theorem failuresOf_append (session : Int64) (first second : List ErrorRequest) :
    failuresOf session (first ++ second) = failuresOf session first ++
      failuresOf session second := by
  simp [failuresOf]

@[simp]
theorem answersOf_append (session : Int64) (first second : List ResponseForSession) :
    answersOf session (first ++ second) = answersOf session first ++ answersOf session second := by
  simp [answersOf]

theorem failuresOf_take_length_le (session : Int64) (errors : List ErrorRequest) (count : ℕ) :
    (failuresOf session (errors.take count)).length ≤ (failuresOf session errors).length :=
  ((( take_prefix count errors).filter _).map _).length_le

namespace ProcessorHistory

variable {parallel : ℕ} {session : Int64} {history after : ProcessorHistory}

def lane (parallel : ℕ) (session : Int64) (history : ProcessorHistory) :
    Lane (Int32 × Request) Int32 where
  sent := ofSession session history.pushed
  confirmed := ofSession session history.committed
  reported := failuresOf session history.reported
  applied := ofSession session history.processed
  answered := answersOf session history.responded
  waiting := (history.processor.waitingOf session).map (·.content)
  queued := ofSession session (history.processor.requestsQueue (getRunnerId parallel session))
  unapplied := ofSession session history.processor.unapplied
  due :=
    if history.processor.stage.hasMoved (getRunnerId parallel session) then
      (ofSession session
        (history.processor.unapplied.take history.processor.stage.sampled)).length
    else 0
  failures := failuresOf session history.processor.errorRequests
  dueFailures :=
    if history.processor.stage.hasMovedForErrors (getRunnerId parallel session) then
      (failuresOf session
        (history.processor.errorRequests.take history.processor.stage.failures)).length
    else 0
  marked := { xid | ⟨session, xid⟩ ∈ history.processor.errorRequestIds }

end ProcessorHistory

/-- Requests stand in the queue of their runner, and no more is sampled than is there. -/
structure RequestProcessor.QueuesSound (parallel : ℕ) (processor : RequestProcessor) : Prop where
  placed : ∀ {runner request}, request ∈ processor.requestsQueue runner →
    runner = getRunnerId parallel request.sessionId
  sampled : processor.stage.sampled ≤ processor.unapplied.length
  counted : processor.stage.failures ≤ processor.errorRequests.length
  listed : ∀ id ∈ processor.errorRequestIds,
    ∃ error ∈ processor.errorRequests, error.getRequestId = id
  popSound : processor.PopSound
  isRunner : ∀ {runner sessions committed errors},
    processor.stage = .reading runner sessions committed errors → runner < parallel

namespace ProcessorHistory

variable {parallel : ℕ} {session : Int64} {history after : ProcessorHistory}

/-- The requests of the session are where the lane shows them. -/
structure LaneSound (parallel : ℕ) (session : Int64) (history : ProcessorHistory) : Prop
    extends history.processor.QueuesSound parallel where
  queued : ∀ {runner request}, request ∈ history.processor.requestsQueue runner →
    request.sessionId = session → request.request.Ordinary
  owned : ∀ {other request}, request ∈ history.processor.pending other →
    request.sessionId = other ∧ (other = session → request.request.Ordinary)
  writes : ∀ {request}, request ∈ history.processor.committedQueue →
    request.sessionId = session → request.request.Ordinary → request.request.isReadRequest = false

variable {alive : Bool} {errors left : ℕ} {surroundings : Surroundings}
  {request : RequestForSession} {handed : Handed} {runner committed : ℕ} {sessions : List Int64}

theorem lane_move (sound : history.LaneSound parallel session)
    (stands : history.processor.stage = .moving runner committed errors) :
    Lane.Step isWrite fst (history.lane parallel session) (.turn alive)
      (lane parallel session
        { history with processor := { history.processor.moveRequestToPendingQueue runner with
            stage := .reading runner sessions committed errors } }) := by
  have moved := @pending_move history.processor runner session
  by_cases isOwn : runner = getRunnerId parallel session
  · have contents : (movedOf session (history.processor.requestsQueue runner)).map (·.content) =
        ofSession session (history.processor.requestsQueue runner) :=
      map_content_movedOf fun isMember own => sound.queued isMember own
    have isConfirmed : (ofSession session (history.processor.unapplied.take committed)).length ≤
        (history.lane parallel session).unapplied.length := (ofSession_take_isPrefix _ _).length_le
    refine (Lane.Step.fill isConfirmed (failuresOf_take_length_le session _ errors)).trans_eq ?_
    simp only [lane, unapplied, waitingOf, stands, Stage.hasMoved, Stage.sampled,
      Stage.hasMovedForErrors, Stage.failures, ← isOwn, ← contents, ← map_append, ← moved]
    simp [moveRequestToPendingQueue, pending]
  · apply Lane.Step.of_eq
    have none : movedOf session (history.processor.requestsQueue runner) = [] := by
      rw [movedOf, filter_eq_nil_iff]
      intro request isMember own
      have isSession : request.sessionId = session := by simp_all
      exact isOwn (isSession ▸ sound.placed isMember)
    have sameDue : (getRunnerId parallel session ≤ runner) ↔
      getRunnerId parallel session < runner :=
      by omega
    rw [none, append_nil] at moved
    simp only [lane, unapplied, waitingOf, stands, Stage.hasMoved, Stage.sampled,
      Stage.hasMovedForErrors, Stage.failures, sameDue, ← moved]
    simp [moveRequestToPendingQueue, RequestProcessor.pending,
      Function.update_of_ne (Ne.symm isOwn)]

theorem lane_hand_other (isOther : request.sessionId = session → ¬ request.request.Ordinary) :
    lane parallel session (history.hand (applyRequest surroundings request)) =
      history.lane parallel session := by
  have notApplied : ofSession session [request] = [] := ofSession_cons_of_other isOther []
  unfold applyRequest
  split
  next refused =>
    have isRead : request.request.isReadRequest = true := by simp_all
    have notOwn : request.sessionId ≠ session := fun isOwn => isOther isOwn (.of_isRead isRead)
    apply Lane.ext <;> try rfl
    simp [hand, lane, answersOf, RequestForSession.failure, notOwn]
  next =>
    apply Lane.ext <;> try rfl
    simp [hand, lane, notApplied]

variable {other : Int64}

theorem lane_read {rest : List Int64} {others : List RequestForSession}
    (sound : history.LaneSound parallel session)
    (stands : history.processor.stage = .reading runner (other :: rest) committed errors)
    (first : history.processor.pending other = request :: others)
    (isRead : request.request.isReadRequest = true) :
    Lane.Step isWrite fst (history.lane parallel session) (.turn surroundings.isLeaderAlive)
      (lane parallel session
        ({ history with
          processor := { history.processor with
            pendingRequests := history.processor.pendingRequests.insert other others
            stage := .reading runner (other :: rest) committed errors } }.hand
          (applyRequest surroundings request))) := by
  rcases sound.owned (first ▸ mem_cons_self) with ⟨isOther, _⟩
  by_cases isOwn : other = session
  · subst isOwn
    have waits : (history.lane parallel other).waiting =
        request.content :: others.map (·.content) := by
      simp [lane, waitingOf, stands, first]
    have noWrite : isWrite request.content = false := by
      simp [isWrite, RequestForSession.content, isRead]
    have contents := ofSession_cons_of_own isOther (.of_isRead isRead) []
    cases alive : surroundings.isLeaderAlive with
    | true =>
      refine (Lane.Step.read waits noWrite).trans_eq ?_
      simp [applyRequest, alive, hand, lane, waitingOf, unapplied, stands, contents]
    | false =>
      refine (Lane.Step.refuse waits noWrite).trans_eq ?_
      simp [applyRequest, alive, isRead, hand, lane, waitingOf, unapplied, stands, answersOf,
        RequestForSession.failure, isOther, RequestForSession.content]
  · apply Lane.Step.of_eq
    rw [lane_hand_other fun own => absurd (isOther.symm.trans own) isOwn]
    simp [lane, waitingOf, unapplied, stands, Ne.symm isOwn, RequestProcessor.pending]

variable {pendingRequests : Dict Int64 (List RequestForSession)} {found : Option Bool}
  {applied : RequestForSession} {rest : List RequestForSession}

theorem lane_apply_other (stands : history.processor.stage = .committing (left + 1) errors)
    (first : history.processor.committedQueue = request :: rest)
    (isOther : request.sessionId = session → ¬ request.request.Ordinary)
    (same : applied.sessionId = request.sessionId ∧ applied.request = request.request)
    (notFound : request.sessionId = session → found ≠ some true)
    (samePending : (pendingRequests.lookup session).getD [] = history.processor.pending session) :
    lane parallel session
      ({ history with
        processor := { history.processor with
          pendingRequests := pendingRequests
          stage := .popping request.sessionId found left errors } }.hand
        (applyRequest surroundings applied)) = history.lane parallel session := by
  have waits : (waitingOf { history.processor with
      pendingRequests := pendingRequests
      stage := .popping request.sessionId found left errors } session) =
      history.processor.pending session := by
    simp only [waitingOf, pending_mk, samePending]
    split
    next isFound =>
      rw [Stage.popping.injEq] at isFound
      rw [if_neg]
      intro isSession
      exact notFound (isFound.1.trans isSession.symm) isFound.2.1
    next => rfl
  have skipped := @ofSession_cons_of_other session request isOther
  rw [lane_hand_other (by rw [same.1, same.2]; exact isOther)]
  apply Lane.ext <;> try rfl
  · simp only [lane, waits]
    simp [waitingOf, stands]
  · simp [lane, unapplied, stands, first, skipped]
  · simp [lane, unapplied, stands, first, skipped]
  · simp [lane, stands]

theorem lane_apply_own {found : Bool} (sound : history.LaneSound parallel session)
    (stands : history.processor.stage = .committing (left + 1) errors)
    (first : history.processor.committedQueue = request :: rest)
    (isOwn : request.sessionId = session) (ordinary : request.request.Ordinary)
    (writes : request.request.isReadRequest = false)
    (should : history.processor.shouldProcessCommittedRequest request = some (applied, found)) :
    Lane.Step isWrite fst (history.lane parallel session) (.turn surroundings.isLeaderAlive)
      (lane parallel session
        ({ history with processor := { history.processor with
            stage := .popping request.sessionId (some found) left errors } }.hand
          (applyRequest surroundings applied))) := by
  rcases shouldProcess_eq_some should with ⟨createTime, rfl⟩
  subst isOwn
  have handed : applyRequest surroundings { request with createTime := createTime } =
      .process { request with createTime := createTime } := by
    simp [applyRequest, writes]
  have contents : ofSession request.sessionId [{ request with createTime := createTime }] =
      [request.content] :=
    @ofSession_cons_of_own _ { request with createTime := createTime } rfl ordinary []
  have unapplied_eq : (history.lane parallel request.sessionId).unapplied =
      request.content :: ofSession request.sessionId rest := by
    simp [lane, unapplied, stands, first, ofSession_cons_of_own rfl ordinary]
  have due_eq : (history.lane parallel request.sessionId).due =
      (ofSession request.sessionId (rest.take left)).length + 1 := by
    simp [lane, unapplied, stands, first, ofSession_cons_of_own rfl ordinary]
  rw [handed]
  rcases shouldProcess_cases should with ⟨head, others, pending_eq, same, rfl, _⟩ | ⟨rfl, _, free⟩
  · have same_pending : (history.processor.pendingRequests.lookup request.sessionId).getD [] =
        head :: others := pending_eq
    have sameKey : head.content.1 = request.content.1 := same
    have waits : (history.lane parallel request.sessionId).waiting =
        head.content :: others.map (·.content) := by
      simp [lane, waitingOf, stands, pending_eq]
    refine (Lane.Step.write unapplied_eq due_eq waits sameKey).trans_eq ?_
    simp [hand, lane, waitingOf, unapplied, stands, first, contents, same_pending]
  · refine (Lane.Step.pass unapplied_eq due_eq ?_).trans_eq (by
      simp [hand, lane, waitingOf, unapplied, stands, first, contents, RequestProcessor.pending])
    have waits : (history.lane parallel request.sessionId).waiting =
        (history.processor.pending request.sessionId).map (·.content) := by
      simp [lane, waitingOf, stands]
    intro content isHead
    rw [waits, head?_map, Option.mem_def, Option.map_eq_some_iff] at isHead
    rcases isHead with ⟨head, isHead, rfl⟩
    rcases free head isHead with ⟨different, notRead, notMarked⟩
    have isSession : head.sessionId = request.sessionId :=
      (sound.owned (mem_of_mem_head? isHead)).1
    refine ⟨different, by simp [isWrite, content, notRead], ?_⟩
    rw [getRequestId, isSession] at notMarked
    exact notMarked

theorem lane_beginErrors (stands : history.processor.stage = .committing left errors) :
    Lane.Step isWrite fst (history.lane parallel session) (.turn alive)
      (lane parallel session
        { history with processor := history.processor.beginErrors errors }) := by
  by_cases noErrors : history.processor.errorRequestIds = ∅
  · refine (Lane.Step.forget (Nat.zero_le _) (Nat.zero_le _)).trans_eq ?_
    simp [lane, waitingOf, unapplied, beginErrors, noErrors, stands, RequestProcessor.pending]
  · refine (Lane.Step.forget (Nat.zero_le _) (le_refl _)).trans_eq ?_
    simp [lane, waitingOf, unapplied, beginErrors, noErrors, stands, RequestProcessor.pending]

theorem lane_pop (stands : history.processor.stage = .popping other found left errors) :
    lane parallel session
      { history with processor := history.processor.popStep other found left errors } =
      history.lane parallel session := by
  have waits : waitingOf (history.processor.popStep other found left errors) session =
      history.processor.waitingOf session := by
    cases found with
    | none => simp [waitingOf, popStep, stands, RequestProcessor.pending]
    | some found =>
      simp only [waitingOf, popStep, stands, pending_mk, pending_dropApplied]
      by_cases isOwn : session = other <;> cases found <;> simp [isOwn]
  apply Lane.ext <;> try rfl
  · simp only [lane, waits]
  · simp [lane, unapplied, popStep, stands]
  · simp [lane, unapplied, popStep, stands]
  · simp [lane, popStep, stands]

/-- A failure that is reported for the session is that of a request it has sent, or it has nothing
to do with these. -/
def Fits (session : Int64) (pushed : List RequestForSession) (error : ErrorRequest) : Prop :=
  (∃ content ∈ ofSession session pushed, content.1 = error.xid ∧ content.2.getOpNum = error.opnum) ∨
  error.xid ∉ (ofSession session pushed).map fst ∧ error.opnum ≠ .close

/-- The failures that are listed for the session are those of requests that it has sent. -/
structure FailureSound (session : Int64) (history : ProcessorHistory) : Prop where
  fits : ∀ error ∈ history.processor.errorRequests, error.sessionId = session →
    Fits session history.pushed error
  waits : ∀ request ∈ history.processor.pending session,
    request.content ∈ ofSession session history.pushed
  closes : ∀ first ∈ ofSession session history.pushed, ∀ second ∈ ofSession session history.pushed,
    first.2.getOpNum = .close → second.2.getOpNum = .close → first = second
  xids : ∀ content ∈ ofSession session history.pushed, content.1 ≠ authXid ∧ content.1 ≠ 0

variable {error : ErrorRequest}

theorem FailureSound.matchesError_eq (failureSound : history.FailureSound session)
    (isListed : error ∈ history.processor.errorRequests) (isOwn : error.sessionId = session)
    (isPending : request ∈ history.processor.pending session) :
    matchesError error request = decide (request.content.1 = error.xid) := by
  have isSent := failureSound.waits request isPending
  unfold matchesError
  by_cases same : request.xid = error.xid
  · simp [same, content]
  · have notClosing : request.request.getOpNum = .close → ¬ error.opnum = .close := by
      intro requestCloses errorCloses
      rcases failureSound.fits error isListed isOwn with
        ⟨content, contentSent, xid, opnum⟩ | ⟨_, no⟩
      · have isContent := failureSound.closes _ isSent _ contentSent requestCloses
          (opnum.trans errorCloses)
        exact same ((congrArg fst isContent).trans xid)
      · exact no errorCloses
    simpa [same, content] using notClosing

theorem eraseP_congr_of_mem {α : Type} {first second : α → Bool} {elements : List α}
    (agree : ∀ element ∈ elements, first element = second element) :
    elements.eraseP first = elements.eraseP second := by
  induction elements with
  | nil => rfl
  | cons element rest ih =>
    rw [eraseP_cons, eraseP_cons, agree element mem_cons_self,
      ih fun other isMember => agree other (mem_cons_of_mem _ isMember)]

theorem findErrorRequest_spec {processor : RequestProcessor} {now : Int64} {error : ErrorRequest}
    (notAuth : error.xid ≠ authXid)
    (agree : ∀ request ∈ processor.pending error.sessionId,
      matchesError error request = decide (request.content.1 = error.xid)) :
    (processor.findErrorRequest now error).1 =
        (processor.pending error.sessionId).find? (fun request => request.content.1 = error.xid) ∧
      ∀ session, (((processor.findErrorRequest now error).2).lookup session).getD [] =
        if session = error.sessionId then
          (processor.pending error.sessionId).eraseP fun request => request.content.1 = error.xid
        else processor.pending session := by
  rw [← find?_congr agree, ← eraseP_congr_of_mem agree, findErrorRequest, if_neg notAuth]
  cases isPending : processor.pendingRequests.lookup error.sessionId with
  | none =>
    simp only [pending, isPending, Option.getD_none]
    refine ⟨rfl, ?_⟩
    intro session
    by_cases same : session = error.sessionId
    · subst same
      rw [if_pos rfl, isPending]
      rfl
    · rw [if_neg same]
  | some requests =>
    simp only [pending, isPending, Option.getD_some]
    cases found : requests.find? (matchesError error) with
    | none =>
      refine ⟨rfl, ?_⟩
      intro session
      have noMatch : requests.eraseP (matchesError error) = requests :=
        eraseP_of_forall_not (find?_eq_none.mp found)
      by_cases same : session = error.sessionId
      · subst same
        rw [if_pos rfl, noMatch, isPending]
        rfl
      · rw [if_neg same]
    | some request =>
      refine ⟨rfl, ?_⟩
      intro session
      rw [Finmap.lookup_insert_ite]
      split <;> rfl

/-- The first failure has been taken, and what has come of it has been handed on. -/
def failed (history : ProcessorHistory) (error : ErrorRequest) (rest : List ErrorRequest)
    (pendingRequests : Dict Int64 (List RequestForSession)) (left : ℕ) (handed : Handed) :
    ProcessorHistory :=
  { history with processor := { history.processor with
      errorRequests := rest
      errorRequestIds := history.processor.errorRequestIds.erase error.getRequestId
      pendingRequests := pendingRequests
      stage := .failing left } }.hand handed

section

variable {rest : List ErrorRequest} {answers : List ResponseForSession}
  (stands : history.processor.stage = .failing (left + 1))
  (notProcessed : ∀ earlier : ProcessorHistory,
    earlier.hand handed = { earlier with responded := earlier.responded ++ answers })

include stands notProcessed

theorem lane_failed :
    lane parallel session (history.failed error rest pendingRequests left handed) =
      { history.lane parallel session with
        answered := (history.lane parallel session).answered ++ answersOf session answers
        waiting := ((pendingRequests.lookup session).getD []).map (·.content)
        failures := failuresOf session rest
        dueFailures := (failuresOf session (rest.take left)).length
        marked := { xid |
          ⟨session, xid⟩ ∈ history.processor.errorRequestIds.erase error.getRequestId } } := by
  rw [failed, notProcessed]
  simp [lane, waitingOf, unapplied, stands]

variable (isErrors : history.processor.errorRequests = error :: rest)

include isErrors

theorem lane_fail_other (notOwn : error.sessionId ≠ session)
    (notAnswered : ∀ answer ∈ answers, answer.sessionId = error.sessionId)
    (samePending : (pendingRequests.lookup session).getD [] = history.processor.pending session) :
    lane parallel session (history.failed error rest pendingRequests left handed) =
      history.lane parallel session := by
  have skipped : ∀ errors, failuresOf session (error :: errors) = failuresOf session errors := by
    intro errors
    simp [failuresOf, notOwn]
  have noAnswers : answersOf session answers = [] := by
    rw [answersOf, map_eq_nil_iff, filter_eq_nil_iff]
    intro answer isMember isOwn
    exact notOwn ((notAnswered answer isMember).symm.trans (of_decide_eq_true isOwn))
  have otherId : ∀ xid, (⟨session, xid⟩ : RequestId) ≠ error.getRequestId := by
    intro xid same
    exact notOwn (congrArg RequestId.sessionId same).symm
  rw [lane_failed stands notProcessed]
  simp [lane, waitingOf, stands, isErrors, samePending, skipped, noAnswers, otherId]

theorem lane_fail_own (isOwn : error.sessionId = session)
    (answer : answersOf session answers =
        (((history.processor.pending session).find?
          fun request => request.content.1 = error.xid).map (·.xid)).toList ∨
      error.xid ∉ (ofSession session history.pushed).map fst ∧
        ∀ xid ∈ answersOf session answers, xid ∉ (ofSession session history.pushed).map fst)
    (erased : (pendingRequests.lookup session).getD [] =
      (history.processor.pending session).eraseP fun request => request.content.1 = error.xid) :
    Lane.Step isWrite fst (history.lane parallel session) (.turn alive)
      (lane parallel session (history.failed error rest pendingRequests left handed)) := by
  subst isOwn
  have counted : ∀ errors, failuresOf error.sessionId (error :: errors) =
      error.xid :: failuresOf error.sessionId errors := by
    intro errors
    simp [failuresOf]
  have waits : (history.lane parallel error.sessionId).waiting =
      (history.processor.pending error.sessionId).map (·.content) := by
    simp [lane, waitingOf, stands]
  have unmarked : { xid | (⟨error.sessionId, xid⟩ : RequestId) ∈
      history.processor.errorRequestIds.erase error.getRequestId } =
      (history.lane parallel error.sessionId).marked \ {error.xid} := by
    ext xid
    simp [lane, ErrorRequest.getRequestId, and_comm]
  rw [lane_failed stands notProcessed, unmarked, erased]
  have step := @Lane.Step.fail _ _ _ isWrite fst (history.lane parallel error.sessionId) alive
    error.xid (failuresOf error.sessionId rest) (answersOf error.sessionId answers)
    (failuresOf error.sessionId (rest.take left)).length
    (by simp [lane, isErrors, counted])
    (by simp [lane, isErrors, counted, stands, Stage.hasMovedForErrors, Stage.failures])
  rw [waits, find?_map, eraseP_map] at step
  refine step (answer.imp ?_ id)
  intro isAnswer
  rw [isAnswer, Option.map_map]
  rfl

end

theorem hand_nothing (earlier : ProcessorHistory) :
    earlier.hand .nothing = { earlier with responded := earlier.responded ++ [] } := by
  rw [append_nil]
  rfl

theorem hand_respond (response : ResponseForSession) (earlier : ProcessorHistory) :
    earlier.hand (.respond response) =
      { earlier with responded := earlier.responded ++ [response] } := rfl

variable {processor : RequestProcessor}

theorem lane_fail (sound : history.LaneSound parallel session)
    (failureSound : history.FailureSound session)
    (isLocal : surroundings.isLocalSession session = true)
    (stands : history.processor.stage = .failing (left + 1))
    (fails : history.processor.errorStep surroundings left = some (processor, handed)) :
    Lane.Step isWrite fst (history.lane parallel session) (.turn alive)
      (lane parallel session ({ history with processor := processor }.hand handed)) := by
  rcases errorStep_cases fails with ⟨error, rest, pendingRequests, isErrors, rfl, isCase⟩
  have isListed : error ∈ history.processor.errorRequests := by simp [isErrors]
  by_cases isOwn : error.sessionId = session
  · have unsent : error.xid ∉ (ofSession session history.pushed).map fst →
        (history.processor.pending session).eraseP (fun request => request.content.1 = error.xid) =
          history.processor.pending session := by
      intro notSent
      apply eraseP_of_forall_not
      intro request isPending same
      exact notSent (mem_map.mpr ⟨_, failureSound.waits request isPending, of_decide_eq_true same⟩)
    rcases isCase with ⟨isSession, rfl, rfl⟩ | ⟨_, isRemote, _, _⟩ | ⟨noSession, _, rfl, rfl⟩
    · -- A session request is not among the requests that the session has sent.
      have notSent : error.xid ∉ (ofSession session history.pushed).map fst := by
        rcases failureSound.fits error isListed isOwn with ⟨content, isSent, _, opnum⟩ | ⟨no, _⟩
        · have ordinary := ordinary_of_mem_ofSession isSent
          rw [Request.Ordinary, opnum, isSession] at ordinary
          cases ordinary.1
        · exact no
      apply lane_fail_own stands (hand_respond _) isErrors isOwn
      · refine .inr ⟨notSent, ?_⟩
        simpa [answersOf, sessionErrorResponse, isOwn] using notSent
      · exact (unsent notSent).symm
    · rw [isOwn, isLocal] at isRemote
      cases isRemote
    · by_cases isAuth : error.xid = authXid
      · have notSent : ∀ xid, (xid = authXid ∨ xid = 0) →
            xid ∉ (ofSession session history.pushed).map fst := by
          intro xid isReserved isSent
          rcases mem_map.mp isSent with ⟨content, contentSent, rfl⟩
          rcases failureSound.xids content contentSent with ⟨notAuth, notZero⟩
          exact isReserved.elim notAuth notZero
        have found : history.processor.findErrorRequest surroundings.now error =
            (some (authRequest error.sessionId surroundings.now),
              history.processor.pendingRequests) := if_pos isAuth
        rw [found]
        apply lane_fail_own stands (hand_respond _) isErrors isOwn
        · refine .inr ⟨notSent _ (.inl isAuth), ?_⟩
          simpa [answersOf, RequestForSession.failure, authRequest, isOwn] using
            notSent 0 (.inr rfl)
        · exact (unsent (notSent _ (.inl isAuth))).symm
      · subst isOwn
        rcases @findErrorRequest_spec history.processor surroundings.now error isAuth
          (fun request isPending => failureSound.matchesError_eq isListed rfl isPending) with
          ⟨found, erased⟩
        have erasedOwn := erased error.sessionId
        rw [if_pos rfl] at erasedOwn
        rw [found]
        cases isFound : (history.processor.pending error.sessionId).find?
            (fun request => request.content.1 = error.xid) with
        | none =>
          apply lane_fail_own stands hand_nothing isErrors rfl _ erasedOwn
          rw [isFound]
          exact .inl rfl
        | some request =>
          have isSession := (sound.owned (mem_of_find?_eq_some isFound)).1
          apply lane_fail_own stands (hand_respond _) isErrors rfl _ erasedOwn
          rw [isFound]
          exact .inl (by simp [answersOf, RequestForSession.failure, isSession])
  · apply Lane.Step.of_eq
    have notOther : session ≠ error.sessionId := Ne.symm isOwn
    rcases isCase with ⟨_, rfl, rfl⟩ | ⟨_, _, rfl, rfl⟩ | ⟨_, _, rfl, rfl⟩
    · apply lane_fail_other stands (hand_respond _) isErrors isOwn _ rfl
      simp [sessionErrorResponse]
    · apply lane_fail_other stands hand_nothing isErrors isOwn (by simp)
      rw [pending_erase, if_neg notOther]
    · rcases @findErrorRequest_frame history.processor surroundings.now
        error with ⟨same, isOwnRequest⟩
      cases isFound : (history.processor.findErrorRequest surroundings.now error).1 with
      | none =>
        exact lane_fail_other stands hand_nothing isErrors isOwn (by simp) (same notOther)
      | some request =>
        apply lane_fail_other stands (hand_respond _) isErrors isOwn _ (same notOther)
        rcases isOwnRequest isFound with rfl | isPending
        · simp [RequestForSession.failure, authRequest]
        · simp [RequestForSession.failure, (sound.owned isPending).1]

theorem lane_transition (positive : 0 < parallel) (sound : history.LaneSound parallel session)
    (failureSound : ∀ left, history.processor.stage = .failing (left + 1) →
      history.FailureSound session) (isLocal : surroundings.isLocalSession session = true)
    (moves : Transition parallel surroundings history.processor processor handed) :
    Lane.Step isWrite fst (history.lane parallel session) (.turn surroundings.isLeaderAlive)
      (lane parallel session ({ history with processor := processor }.hand handed)) := by
  have isRunner : getRunnerId parallel session < parallel := Nat.mod_lt _ positive
  cases moves with
  | sample stands | sampleErrors stands =>
    apply Lane.Step.of_eq
    simp [hand, lane, unapplied, waitingOf, stands, RequestProcessor.pending]
  | move stands _ isMoved =>
    subst isMoved
    exact lane_move sound stands
  | movedAll stands noRunner =>
    apply Lane.Step.of_eq
    have hasMoved := Nat.lt_of_lt_of_le isRunner noRunner
    simp [hand, lane, unapplied, waitingOf, stands, hasMoved, RequestProcessor.pending]
  | readAll stands =>
    apply Lane.Step.of_eq
    simp [hand, lane, unapplied, waitingOf, stands, RequestProcessor.pending]
  | @eraseSession _ _ _ other _ stands isEmpty =>
    apply Lane.Step.of_eq
    have same : ((history.processor.pendingRequests.erase other).lookup session).getD [] =
        history.processor.pending session := by
      rw [pending_erase]
      split
      next isOwn => rw [isOwn, isEmpty]
      next => rfl
    simp [hand, lane, unapplied, waitingOf, stands, same]
  | read stands first isRead => exact lane_read sound stands first isRead
  | stopAtWrite stands first isWrite =>
    apply Lane.Step.of_eq
    simp [hand, lane, unapplied, waitingOf, stands, RequestProcessor.pending]
  | committedAll stands => exact lane_beginErrors stands
  | peekNone stands isEmpty =>
    apply Lane.Step.of_eq
    simp [hand, lane, unapplied, waitingOf, stands, isEmpty, RequestProcessor.pending]
  | applySession stands first isSession =>
    refine .of_eq (lane_apply_other stands first (fun _ ordinary => ?_) ⟨rfl, rfl⟩ (by simp) rfl)
    rw [ordinary.1] at isSession
    cases isSession
  | @applyRemote _ _ request _ stands first noSession isRemote =>
    have notOwn : session ≠ request.sessionId := by
      rintro rfl
      simp [isLocal] at isRemote
    exact .of_eq (lane_apply_other stands first (fun isOwn => absurd isOwn.symm notOwn)
      ⟨rfl, rfl⟩ (by simp) (by rw [pending_erase, if_neg notOwn]))
  | applyAuth stands first isAuth =>
    exact .of_eq (lane_apply_other stands first (fun _ ordinary => ordinary.2 isAuth)
      ⟨rfl, rfl⟩ (by simp) rfl)
  | stopAtPending stands => exact lane_beginErrors stands
  | @applyLocal _ _ request applied rest found stands first noSession _ noAuth should =>
    by_cases isOwn : request.sessionId = session
    · have writes := sound.writes (first ▸ mem_cons_self) isOwn ⟨noSession, noAuth⟩
      exact lane_apply_own sound stands first isOwn ⟨noSession, noAuth⟩ writes should
    · rcases shouldProcess_eq_some should with ⟨createTime, rfl⟩
      exact .of_eq (lane_apply_other stands first (fun own => absurd own isOwn) ⟨rfl, rfl⟩
        (fun own => absurd own isOwn) rfl)
  | pop stands => exact .of_eq (lane_pop stands)
  | failedAll stands =>
    apply Lane.Step.of_eq
    simp [hand, lane, unapplied, waitingOf, stands, failuresOf, RequestProcessor.pending]
  | fail stands fails => exact lane_fail sound (failureSound _ stands) isLocal stands fails

theorem lane_push (moves : history.next parallel (.push request) = some after) :
    after.lane parallel session = { history.lane parallel session with
      sent := (history.lane parallel session).sent ++ ofSession session [request]
      queued := (history.lane parallel session).queued ++ ofSession session [request] } := by
  rw [next_push moves]
  apply Lane.ext <;> try rfl
  · simp [lane]
  · simp only [lane, Function.update_apply]
    split
    next same => simp [same]
    next differs =>
      have notOwn : request.sessionId ≠ session := by
        rintro rfl
        exact differs rfl
      rw [ofSession_cons_of_other (fun isOwn => absurd isOwn notOwn) [], ofSession_nil, append_nil]

section

variable (sound : history.LaneSound parallel session)

include sound

theorem lane_commit (moves : history.next parallel (.commit request) = some after) :
    after.lane parallel session = { history.lane parallel session with
      confirmed := (history.lane parallel session).confirmed ++ ofSession session [request]
      unapplied := (history.lane parallel session).unapplied ++ ofSession session [request] } := by
  have unapplied_eq := @unapplied_commit history.processor request sound.popSound
  rw [next_commit moves]
  apply Lane.ext <;> try rfl
  · simp [lane]
  · simp [lane, unapplied_eq]
  · simp only [lane, unapplied_eq, take_append_of_le_length sound.sampled]

theorem lane_onError {error : ErrorRequest}
    (moves : history.next parallel (.onError error) = some after) :
    after.lane parallel session = { history.lane parallel session with
      reported := (history.lane parallel session).reported ++ failuresOf session [error]
      failures := (history.lane parallel session).failures ++ failuresOf session [error]
      marked := { xid |
        ⟨session, xid⟩ ∈ insert error.getRequestId history.processor.errorRequestIds } } := by
  rw [(next_onError moves).2]
  apply Lane.ext <;> try rfl
  · simp [lane]
  · simp [lane]
  · simp only [lane, take_append_of_le_length sound.counted]

end

variable {before : RequestProcessor}

theorem sampled_transition {after : RequestProcessor}
    (moves : Transition parallel surroundings before after handed)
    (sampled : before.stage.sampled ≤ before.unapplied.length) :
    after.stage.sampled ≤ after.unapplied.length := by
  cases moves with
  | sample => exact le_refl _
  | move stands _ isMoved =>
    subst isMoved
    simpa [stands, unapplied, moveRequestToPendingQueue] using sampled
  | committedAll | stopAtPending =>
    simp only [beginErrors]
    split <;> exact Nat.zero_le _
  | pop stands => simpa [popStep, stands, unapplied] using sampled
  | peekNone stands isEmpty => simp [stands, unapplied, isEmpty] at sampled
  | applySession stands first | applyRemote stands first | applyAuth stands first
  | applyLocal stands first => simpa [stands, unapplied, first] using sampled
  | failedAll => exact Nat.zero_le _
  | fail stands fails =>
    rw [(errorStep_frame fails).2.2.1]
    exact Nat.zero_le _
  | sampleErrors stands | movedAll stands | readAll stands | eraseSession stands | read stands
  | stopAtWrite stands => simpa [stands, unapplied] using sampled

theorem listed_card_le (listed : ∀ id ∈ processor.errorRequestIds,
      ∃ error ∈ processor.errorRequests, error.getRequestId = id) :
    processor.errorRequestIds.card ≤ processor.errorRequests.length := by
  have subset : processor.errorRequestIds ⊆
      (processor.errorRequests.map (·.getRequestId)).toFinset := by
    intro id isMember
    rw [mem_toFinset, mem_map]
    exact listed id isMember
  calc processor.errorRequestIds.card
      ≤ (processor.errorRequests.map (·.getRequestId)).toFinset.card := Finset.card_le_card subset
    _ ≤ (processor.errorRequests.map (·.getRequestId)).length := toFinset_card_le _
    _ = processor.errorRequests.length := length_map _

theorem errors_transition {after : RequestProcessor}
    (moves : Transition parallel surroundings before after handed)
    (counted : before.stage.failures ≤ before.errorRequests.length)
    (listed : ∀ id ∈ before.errorRequestIds,
      ∃ error ∈ before.errorRequests, error.getRequestId = id) :
    after.stage.failures ≤ after.errorRequests.length ∧
      ∀ id ∈ after.errorRequestIds, ∃ error ∈ after.errorRequests, error.getRequestId = id := by
  cases moves with
  | sampleErrors => exact ⟨listed_card_le listed, listed⟩
  | move stands _ isMoved =>
    subst isMoved
    rw [stands] at counted
    exact ⟨counted, listed⟩
  | committedAll stands | stopAtPending stands =>
    rw [stands] at counted
    refine ⟨?_, listed⟩
    simp only [beginErrors]
    split
    · exact Nat.zero_le _
    · exact counted
  | fail stands fails =>
    rcases errorStep_cases fails with ⟨error, rest, _, isErrors, rfl, _⟩
    rw [stands, isErrors] at counted
    refine ⟨Nat.le_of_succ_le_succ counted, ?_⟩
    intro id isMember
    rcases Finset.mem_erase.mp isMember with ⟨isOther, wasMember⟩
    rcases listed id wasMember with ⟨other, isListed, rfl⟩
    rw [isErrors] at isListed
    rcases mem_cons.mp isListed with rfl | isRest
    · exact absurd rfl isOther
    · exact ⟨other, isRest, rfl⟩
  | sample | failedAll => exact ⟨Nat.zero_le _, listed⟩
  | movedAll stands | readAll stands | eraseSession stands | read stands | stopAtWrite stands
  | peekNone stands | applySession stands | applyRemote stands | applyAuth stands
  | applyLocal stands | pop stands =>
    rw [stands] at counted
    exact ⟨counted, listed⟩

theorem isRunner_transition {after : RequestProcessor}
    (moves : Transition parallel surroundings before after handed)
    (isRunner : ∀ {runner sessions committed errors},
      before.stage = .reading runner sessions committed errors → runner < parallel)
    (stands : after.stage = .reading runner sessions committed errors) : runner < parallel := by
  cases moves with
  | move _ isRunner isMoved =>
    cases stands
    exact isRunner
  | eraseSession stood | read stood | stopAtWrite stood =>
    cases stands
    exact isRunner stood
  | committedAll | stopAtPending =>
    simp only [beginErrors] at stands
    split at stands <;> cases stands
  | fail _ fails =>
    rw [(errorStep_frame fails).2.2.1] at stands
    cases stands
  | _ => cases stands

theorem queuesSound_transition {after : RequestProcessor} (sound : before.QueuesSound parallel)
    (moves : Transition parallel surroundings before after handed) :
    after.QueuesSound parallel where
  placed isMember := sound.placed (requestsQueue_transition moves isMember)
  sampled := sampled_transition moves sound.sampled
  counted := (errors_transition moves sound.counted sound.listed).1
  listed := (errors_transition moves sound.counted sound.listed).2
  popSound := popSound_transition moves
  isRunner := isRunner_transition moves sound.isRunner

variable {call : ProcessorCall}

theorem queuesSound_next (sound : history.processor.QueuesSound parallel)
    (moves : history.next parallel call = some after) :
    after.processor.QueuesSound parallel := by
  cases call with
  | push request =>
    rw [next_push moves]
    refine { sound with placed := fun {runner other} isMember => ?_ }
    simp only [Function.update_apply] at isMember
    split at isMember
    next isRunner =>
      rcases mem_append.mp isMember with isOld | isNew
      · exact sound.placed (isRunner ▸ isOld)
      · cases mem_singleton.mp isNew
        exact isRunner
    next => exact sound.placed isMember
  | commit request =>
    rw [next_commit moves]
    refine { sound with sampled := ?_, popSound := fun _ => by simp }
    rw [@unapplied_commit history.processor request sound.popSound, length_append]
    exact Nat.le_add_right_of_le sound.sampled
  | onError error =>
    rw [(next_onError moves).2]
    refine { sound with counted := ?_, listed := ?_ }
    · rw [length_append]
      exact Nat.le_add_right_of_le sound.counted
    · intro id isMember
      rcases Finset.mem_insert.mp isMember with rfl | isOld
      · exact ⟨error, by simp, rfl⟩
      · rcases sound.listed id isOld with ⟨other, isListed, same⟩
        exact ⟨other, mem_append_left _ isListed, same⟩
  | run surroundings =>
    rcases next_run moves with ⟨processor, handed, transition, rfl⟩
    rw [hand_processor]
    exact queuesSound_transition sound transition

/-- Session requests and Auth are not pushed, and reads are not committed. -/
def Separate (session : Int64) : ProcessorCall → Prop
  | .push request => request.sessionId = session → request.request.Ordinary
  | .commit request => request.sessionId = session → request.request.Ordinary →
      request.request.isReadRequest = false
  | .onError _ | .run _ => True

theorem LaneSound.next (sound : history.LaneSound parallel session)
    (separate : Separate session call) (moves : history.next parallel call = some after) :
    after.LaneSound parallel session := by
  have queues := queuesSound_next sound.toQueuesSound moves
  cases call with
  | push request =>
    rw [next_push moves] at queues ⊢
    refine ⟨queues, ?_, sound.owned, sound.writes⟩
    intro runner other isMember
    simp only [Function.update_apply] at isMember
    split at isMember
    next isRunner =>
      rcases mem_append.mp isMember with isOld | isNew
      · exact sound.queued isOld
      · cases mem_singleton.mp isNew
        exact separate
    next => exact sound.queued isMember
  | commit request =>
    rw [next_commit moves] at queues ⊢
    refine ⟨queues, sound.queued, sound.owned, ?_⟩
    intro other isMember
    rcases mem_append.mp isMember with isOld | isNew
    · exact sound.writes isOld
    · cases mem_singleton.mp isNew
      exact separate
  | onError error =>
    rw [(next_onError moves).2] at queues ⊢
    exact ⟨queues, sound.queued, sound.owned, sound.writes⟩
  | run surroundings =>
    rcases next_run moves with ⟨processor, handed, transition, rfl⟩
    refine ⟨queues, ?_, ?_, ?_⟩ <;> rw [hand_processor]
    · exact fun isMember => sound.queued (requestsQueue_transition transition isMember)
    · intro other request isMember
      rcases mem_pending_transition transition isMember with isOld | ⟨isOwn, runner, isQueued⟩
      · exact sound.owned isOld
      · exact ⟨isOwn, fun isSession => sound.queued isQueued (isOwn.trans isSession)⟩
    · exact fun isMember => sound.writes (committedQueue_transition transition isMember)

/-- What the session sees of a call. -/
inductive Sees (session : Int64) : ProcessorCall → Lane.Event (Int32 × Request) Int32 → Prop
  | push {request : RequestForSession} (isOwn : request.sessionId = session) :
      Sees session (.push request) (.send request.content)
  | commit {request : RequestForSession} (isOwn : request.sessionId = session)
      (ordinary : request.request.Ordinary) :
      Sees session (.commit request) (.confirm request.content)
  | onError {error : ErrorRequest} (isOwn : error.sessionId = session) :
      Sees session (.onError error) (.report error.xid)
  | run {surroundings : Surroundings} :
      Sees session (.run surroundings) (.turn surroundings.isLeaderAlive)

theorem lane_next (positive : 0 < parallel) (sound : history.LaneSound parallel session)
    (failureSound : ∀ left, history.processor.stage = .failing (left + 1) →
      history.FailureSound session) (isLocal : ∀ surroundings, call = .run surroundings →
      surroundings.isLocalSession session = true) (separate : Separate session call)
    (moves : history.next parallel call = some after) :
    after.lane parallel session = history.lane parallel session ∨
      ∃ event, Sees session call event ∧
        Lane.Step isWrite fst (history.lane parallel session) event
          (after.lane parallel session) := by
  cases call with
  | push request =>
    rw [lane_push moves]
    by_cases isOwn : request.sessionId = session
    · rw [ofSession_cons_of_own isOwn (separate isOwn)]
      exact .inr ⟨_, .push isOwn, .send _⟩
    · rw [ofSession_cons_of_other fun own => absurd own isOwn]
      simp
  | commit request =>
    rw [lane_commit sound moves]
    by_cases isOwn : request.sessionId = session ∧ request.request.Ordinary
    · rw [ofSession_cons_of_own isOwn.1 isOwn.2]
      exact .inr ⟨_, .commit isOwn.1 isOwn.2, .confirm _⟩
    · rw [ofSession_cons_of_other fun own ordinary => isOwn ⟨own, ordinary⟩]
      simp
  | onError error =>
    rw [lane_onError sound moves]
    by_cases isOwn : error.sessionId = session
    · refine .inr ⟨_, .onError isOwn, (Lane.Step.report _).trans_eq ?_⟩
      subst isOwn
      simp [lane, failuresOf, ErrorRequest.getRequestId, Set.insert_def]
    · simp [lane, failuresOf, isOwn, ErrorRequest.getRequestId, Ne.symm isOwn]
  | run surroundings =>
    rcases next_run moves with ⟨processor, handed, transition, rfl⟩
    exact .inr ⟨_, .run, lane_transition positive sound failureSound (isLocal _ rfl) transition⟩

theorem queuesSound_start : ({} : RequestProcessor).QueuesSound parallel where
  placed := by simp
  sampled := Nat.zero_le _
  counted := Nat.zero_le _
  listed := by simp
  popSound := by simp [PopSound]
  isRunner := nofun

theorem laneSound_start : ({} : ProcessorHistory).LaneSound parallel session where
  toQueuesSound := queuesSound_start
  queued := by simp
  owned := by simp [RequestProcessor.pending]
  writes := by simp

theorem accounted_start :
    (({} : ProcessorHistory).lane parallel session).Accounted isWrite fst := by
  constructor <;> simp [lane, waitingOf, unapplied, failuresOf]

end ProcessorHistory

end RaftKeeper
