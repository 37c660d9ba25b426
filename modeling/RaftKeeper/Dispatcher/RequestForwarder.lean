import RaftKeeper.Dispatcher.ForwardCodec
import RaftKeeper.Processor.RequestProcessor

/-!
# Failures of forwarded requests

A runner of a follower keeps what it has forwarded in `forward_request_queue` until the leader
answers or the time is over, and reports what has failed to the `RequestProcessor` of its server.
The leader reports the requests of its own sessions itself.
-/

namespace RaftKeeper

open ForwardResponse List

/-- `nuraft::cmd_result_code::TIMEOUT`; `OK` is 0. -/
def timeoutCode : Int32 := -2

def failedCode : Int32 := -32768

def ErrorRequest.make (code : Int32) (sessionId : Int64) (xid : Int32) (opnum : OpNum) :
    ErrorRequest := { timeout := code = timeoutCode, sessionId, xid, opnum }

/-- The failure is that of the request; a session request is known by its id alone. -/
def ErrorRequest.IsFor (error : ErrorRequest) (request : RequestForSession) : Prop :=
  error.sessionId = request.sessionId ∧ error.opnum = request.request.getOpNum ∧
    (isSessionRequest error.opnum = false → error.xid = request.xid)

def ForwardResponse.onError (response : ForwardResponse) : Option ErrorRequest :=
  match response.ids with
  | .syncSessions => none
  | .newSession internalId =>
    some (.make response.errorCode internalId newSessionXid .newSession)
  | .updateSession sessionId =>
    some (.make response.errorCode sessionId updateSessionXid .updateSession)
  | .user sessionId xid opNum => some (.make response.errorCode sessionId xid.toInt32 opNum)

/-- An element of `forward_request_queue`; no two requests have the same number. -/
structure Forwarded where
  number : ℕ
  request : Outstanding
  sendTime : ℤ

/-- A runner, with what it has reported and what the leader has accepted. -/
structure RequestForwarder where
  queue : List Forwarded := []
  /-- The request that `runSend` has pushed to the queue and is sending. -/
  sending : Option (ℕ × RequestForSession) := none
  /-- The number of requests that `runSend` has taken. -/
  taken : ℕ := 0
  reported : List (ℕ × ErrorRequest) := []
  accepted : List ℕ := []

namespace RequestForwarder

def processResponse (forwarder : RequestForwarder) (response : ForwardResponse) :
    RequestForwarder :=
  match forwarder.queue.find? (response.removes ·.request) with
  | none => forwarder
  | some entry =>
    let removed := { forwarder with
      queue := forwarder.queue.eraseP (response.removes ·.request) }
    if response.accepted then { removed with accepted := removed.accepted ++ [entry.number] }
    else { removed with
      reported := removed.reported ++ (response.onError.map (entry.number, ·)).toList }

/-- The response as it is written by the leader, read back and processed. -/
def deliver (forwarder : RequestForwarder) (response : ForwardResponse) : RequestForwarder :=
  match receive.run response.write with
  | .ok (some received, _) => forwarder.processResponse received
  | _ => forwarder

variable {forwarder : RequestForwarder} {accepted : Bool} {errorCode : Int32}

theorem deliver_makeResponse (request : Outstanding) :
    forwarder.deliver (request.makeResponse.setAppendEntryResult accepted errorCode) =
      forwarder.processResponse
        (request.makeResponse.setAppendEntryResult accepted errorCode) := by
  have reads := receive_makeResponse request accepted errorCode []
  rw [append_nil] at reads
  rw [deliver, reads]

theorem processResponse_spec {request : Outstanding}
    (isThere : request.identity ∈ forwarder.queue.map (·.request.identity)) :
    let after := forwarder.processResponse
      (request.makeResponse.setAppendEntryResult accepted errorCode)
    after.queue.map (·.request.identity) =
        (forwarder.queue.map (·.request.identity)).erase request.identity ∧
      after.reported.map Prod.snd = forwarder.reported.map Prod.snd ++ if accepted then [] else
        (request.makeResponse.setAppendEntryResult accepted errorCode).onError.toList := by
  have sameTest : (fun entry : Forwarded =>
      (request.makeResponse.setAppendEntryResult accepted errorCode).removes entry.request) =
        (· == request.identity) ∘ (·.request.identity) := by
    funext entry
    rw [Bool.eq_iff_iff, removes_iff, Function.comp_apply, beq_iff_eq]
  have erased : (forwarder.queue.eraseP ((· == request.identity) ∘ (·.request.identity))).map
      (·.request.identity) = (forwarder.queue.map (·.request.identity)).erase request.identity := by
    rw [erase_eq_eraseP', eraseP_map]
  rcases mem_map.mp isThere with ⟨entry, isEntry, isRequest⟩
  have isFound : (forwarder.queue.find? ((· == request.identity) ∘ (·.request.identity))).isSome :=
    find?_isSome.mpr ⟨entry, isEntry, by simp [isRequest]⟩
  rcases Option.isSome_iff_exists.mp isFound with ⟨first, found⟩
  simp only [processResponse, sameTest, found]
  cases accepted with
  | true => exact ⟨erased, (append_nil _).symm⟩
  | false =>
    refine ⟨erased, ?_⟩
    simp only [setAppendEntryResult, Bool.false_eq_true, if_false, map_append]
    cases onError _ <;> rfl

theorem reported_foldl_deliver {requests : List Outstanding}
    (areThere : (requests.map (·.identity)).Subperm (forwarder.queue.map (·.request.identity))) :
    ((requests.map (·.makeResponse.setAppendEntryResult accepted errorCode)).foldl deliver
        forwarder).reported.map Prod.snd =
      forwarder.reported.map Prod.snd ++ if accepted then [] else
        requests.filterMap (·.makeResponse.setAppendEntryResult accepted errorCode |>.onError) := by
  induction requests generalizing forwarder with
  | nil => simp
  | cons request rest onRest =>
    have isThere := areThere.subset mem_cons_self
    rcases @processResponse_spec forwarder accepted errorCode request isThere with
      ⟨erases, reports⟩
    have restThere := areThere.erase request.identity
    rw [map_cons, erase_cons_head, ← erases] at restThere
    rw [map_cons, foldl_cons, deliver_makeResponse, onRest restThere, reports, append_assoc]
    congr 1
    cases accepted with
    | true => rfl
    | false =>
      simp only [Bool.false_eq_true, if_false, filterMap_cons]
      cases onError _ <;> rfl

end RequestForwarder

/-- The accepted flag and the result code of `NuRaftResult`. -/
structure AppendResult where
  accepted : Bool
  resultCode : Int32

/-- The batch was not accepted, or its result is not `OK`. -/
def AppendResult.Failed (result : AppendResult) : Prop :=
  result.accepted = false ∨ result.resultCode ≠ 0

instance (result : AppendResult) : Decidable result.Failed :=
  inferInstanceAs (Decidable (_ ∨ _))

/-- A call of `onError`, or of `invokeForwardResponseCallBack`. -/
inductive Verdict
  | onError (error : ErrorRequest)
  | respond (client : ℕ × ℕ) (response : ForwardResponse)

def QueuedRequest.forwarded (request : QueuedRequest) : Outstanding :=
  .request (convertFromRequest request.toRequestForSession)

/-- What the leader does with the result of a batch, request by request. -/
def waitResultAndHandleError (result : AppendResult) (batch : List QueuedRequest) : List Verdict :=
  batch.filterMap fun request =>
    match request.forwardedFrom with
    | some client => some (.respond client
        (request.forwarded.makeResponse.setAppendEntryResult result.accepted result.resultCode))
    | none =>
      if result.Failed then
        some (.onError (.make result.resultCode request.sessionId request.xid
          request.request.getOpNum))
      else none

/-- What is reported to the processor of the leader, or of a follower, by the runner that has
forwarded the requests in this queue. -/
def reports (queues : ℕ × ℕ → List Forwarded) (verdicts : List Verdict) :
    Option (ℕ × ℕ) → List ErrorRequest
  | none => verdicts.filterMap fun
      | .onError error => some error
      | .respond .. => none
  | some client =>
    let responses := verdicts.filterMap fun
      | .respond other response => if other = client then some response else none
      | .onError _ => none
    (responses.foldl RequestForwarder.deliver { queue := queues client }).reported.map Prod.snd

variable {result : AppendResult} {batch : List QueuedRequest} {queues : ℕ × ℕ → List Forwarded}

theorem reports_local (request : QueuedRequest) (isLocal : request.forwardedFrom = none)
    (inBatch : request ∈ batch) :
    (∃ error ∈ reports queues (waitResultAndHandleError result batch) none,
      error.IsFor request.toRequestForSession) ↔ result.Failed := by
  rw [reports, waitResultAndHandleError, filterMap_filterMap]
  constructor
  · rintro ⟨error, reported, -⟩
    rcases mem_filterMap.mp reported with ⟨other, -, isReported⟩
    by_contra fine
    cases isOther : other.forwardedFrom <;> simp [isOther, fine] at isReported
  · intro failed
    let error := ErrorRequest.make result.resultCode request.sessionId request.xid
      request.request.getOpNum
    refine ⟨error, mem_filterMap.mpr ⟨request, inBatch, ?_⟩, rfl, rfl, fun _ => rfl⟩
    simp [isLocal, failed, error]

/-- The requests of the batch that this runner of a follower has forwarded. -/
def forwardedBy (client : ℕ × ℕ) (batch : List QueuedRequest) : List Outstanding :=
  batch.filterMap fun request =>
    if request.forwardedFrom = some client then some request.forwarded else none

theorem isFor_onError {request : QueuedRequest} (consistent : request.Consistent)
    (accepted : Bool) (code : Int32) :
    ∃ error, (request.forwarded.makeResponse.setAppendEntryResult accepted code).onError =
      some error ∧ error.IsFor request.toRequestForSession := by
  unfold RequestForSession.Consistent at consistent
  rw [QueuedRequest.forwarded, convertFromRequest]
  split at consistent <;> refine ⟨_, rfl, ?_⟩
  next body isBody => exact ⟨consistent, by rw [isBody]; rfl, by rintro ⟨⟩⟩
  next body isBody => exact ⟨consistent, by rw [isBody]; rfl, by rintro ⟨⟩⟩
  next => exact ⟨rfl, rfl, fun _ => Int32.toInt32_toInt64 _⟩

theorem reports_forwarded {client : ℕ × ℕ}
    (accounted : ((forwardedBy client batch).map (·.identity)).Subperm
      ((queues client).map (·.request.identity))) :
    reports queues (waitResultAndHandleError result batch) (some client) =
      if result.accepted then [] else (forwardedBy client batch).filterMap
        (·.makeResponse.setAppendEntryResult result.accepted result.resultCode |>.onError) := by
  have responses : (waitResultAndHandleError result batch).filterMap (fun
      | .respond other response => if other = client then some response else none
      | .onError _ => none) = (forwardedBy client batch).map
        (·.makeResponse.setAppendEntryResult result.accepted result.resultCode) := by
    rw [waitResultAndHandleError, filterMap_filterMap, forwardedBy, map_filterMap]
    apply filterMap_congr
    intro request _
    cases request.forwardedFrom with
    | none =>
      by_cases failed : result.Failed <;> simp [failed]
    | some other => by_cases isClient : other = client <;> simp [isClient]
  simp only [reports, responses]
  exact @RequestForwarder.reported_foldl_deliver { queue := queues client } _ _ _ accounted

/-- Failures are reported as the result says, unless a batch with forwarded requests is accepted and
its result code is not `OK`. -/
theorem verdicts_agree_iff (result : AppendResult) {batch : List QueuedRequest}
    {queues : ℕ × ℕ → List Forwarded}
    (consistent : ∀ request ∈ batch, request.forwardedFrom ≠ none → request.Consistent)
    (accounted : ∀ client, ((forwardedBy client batch).map (·.identity)).Subperm
      ((queues client).map (·.request.identity))) :
    (∀ request ∈ batch,
        (∃ error ∈ reports queues (waitResultAndHandleError result batch) request.forwardedFrom,
          error.IsFor request.toRequestForSession) ↔ result.Failed) ↔
      (result.accepted = true → result.resultCode ≠ 0 →
        ∀ request ∈ batch, request.forwardedFrom = none) := by
  constructor
  · intro agree isAccepted isError request inBatch
    by_contra isForwarded
    rcases Option.ne_none_iff_exists'.mp isForwarded with ⟨client, isClient⟩
    rcases (agree request inBatch).mpr (.inr isError) with ⟨error, reported, -⟩
    rw [isClient, reports_forwarded (accounted client), if_pos isAccepted] at reported
    exact not_mem_nil reported
  · intro condition request inBatch
    cases isFrom : request.forwardedFrom with
    | none => exact reports_local request isFrom inBatch
    | some client =>
      have rejected (failed : result.Failed) : result.accepted = false := by
        by_contra isAccepted
        have isError := failed.resolve_left isAccepted
        rw [condition (by simpa using isAccepted) isError request inBatch] at isFrom
        cases isFrom
      rw [reports_forwarded (accounted client)]
      constructor
      · rintro ⟨error, reported, -⟩
        cases isAccepted : result.accepted with
        | true => simp [isAccepted] at reported
        | false => exact .inl isAccepted
      · intro failed
        have isConsistent := consistent request inBatch (by simp [isFrom])
        rcases isFor_onError isConsistent result.accepted result.resultCode with
          ⟨error, isError, isFor⟩
        refine ⟨error, ?_, isFor⟩
        rw [if_neg (by simp [rejected failed]), mem_filterMap]
        refine ⟨request.forwarded, mem_filterMap.mpr ⟨request, inBatch, ?_⟩, isError⟩
        rw [if_pos isFrom]

def forwardedCreate : QueuedRequest where
  sessionId := 2
  xid := 1
  request := .single (.create { path := ascii "/b" })
  forwardedFrom := some (2, 0)

def mixedBatch : List QueuedRequest :=
  [{ sessionId := 1, xid := 1, request := .single (.create { path := ascii "/a" }) },
    forwardedCreate]

def mixedQueues (client : ℕ × ℕ) : List Forwarded :=
  (forwardedBy client mixedBatch).map fun request => ⟨0, request, 0⟩

theorem verdicts_agree_rejected :
    ∃ error ∈ reports mixedQueues (waitResultAndHandleError ⟨false, 0⟩ mixedBatch) (some (2, 0)),
      error.IsFor forwardedCreate.toRequestForSession := by
  have accounted (client : ℕ × ℕ) : ((forwardedBy client mixedBatch).map (·.identity)).Subperm
      ((mixedQueues client).map (·.request.identity)) := by
    rw [mixedQueues, map_map]
    exact Subperm.refl _
  have agree := (verdicts_agree_iff ⟨false, 0⟩ (by decide +kernel) accounted).mpr nofun
  exact (agree forwardedCreate (mem_cons_of_mem _ mem_cons_self)).mpr (.inl rfl)

/-- `CANCELLED`, which is -1, is reported to the leader's processor and not to the follower's. -/
theorem cancelled_unreported : AppendResult.Failed ⟨true, -1⟩ ∧
    [none, some (2, 0)].map (fun owner =>
      (reports mixedQueues (waitResultAndHandleError ⟨true, -1⟩ mixedBatch) owner).map
        ErrorRequest.getRequestId) = [[⟨1, 1⟩], []] := by
  decide +kernel

def Forwarded.late (operationTimeout now : ℤ) (entry : Forwarded) : Bool :=
  now > entry.sendTime + operationTimeout

/-- A step of the two threads of a runner; the rest of a round that sends sessions changes
nothing. -/
inductive ForwarderStep
  /-- An exception before the push to `forward_request_queue`. -/
  | refuse (request : RequestForSession)
  | push (request : RequestForSession) (now : ℤ)
  | pushSessions (sessions : Dict Int64 Int64) (now : ℤ)
  | sendReturns
  | sendThrows
  | timeout (now : ℤ)
  | receive (response : ForwardResponse)

namespace RequestForwarder

def fail (forwarder : RequestForwarder) (number : ℕ) (request : RequestForSession) :
    RequestForwarder :=
  { forwarder with reported := forwarder.reported ++
      [(number, .make failedCode request.sessionId request.xid request.request.getOpNum)] }

def enqueue (forwarder : RequestForwarder) (request : Outstanding) (sendTime : ℤ) :
    RequestForwarder :=
  { forwarder with
    queue := forwarder.queue ++ [⟨forwarder.taken, request, sendTime⟩]
    taken := forwarder.taken + 1 }

def processTimeoutRequest (forwarder : RequestForwarder) (operationTimeout now : ℤ) :
    RequestForwarder :=
  let errors := (forwarder.queue.takeWhile (·.late operationTimeout now)).filterMap fun entry =>
    (entry.request.makeResponse.setAppendEntryResult false timeoutCode).onError.map
      (entry.number, ·)
  { forwarder with
    queue := forwarder.queue.dropWhile (·.late operationTimeout now)
    reported := forwarder.reported ++ errors }

def step (operationTimeout : ℤ) (forwarder : RequestForwarder) :
    ForwarderStep → Option RequestForwarder
  | .refuse request =>
    if forwarder.sending.isSome then none
    else some { forwarder.fail forwarder.taken request with taken := forwarder.taken + 1 }
  | .push request now =>
    if forwarder.sending.isSome then none
    else some { forwarder.enqueue (.request (convertFromRequest request)) now with
      sending := some (forwarder.taken, request) }
  | .pushSessions sessions now =>
    if forwarder.sending.isSome then none
    else some (forwarder.enqueue (.syncSessions sessions) now)
  | .sendReturns => some { forwarder with sending := none }
  | .sendThrows =>
    forwarder.sending.map fun (number, request) =>
      { forwarder.fail number request with sending := none }
  | .timeout now => some (forwarder.processTimeoutRequest operationTimeout now)
  | .receive response => some (forwarder.processResponse response)

/-- How often a request is in the queue, reported or accepted. -/
def occurrences (forwarder : RequestForwarder) (number : ℕ) : ℕ :=
  (forwarder.queue.map (·.number)).count number +
    ((forwarder.reported.map Prod.fst).count number + forwarder.accepted.count number)

variable {forwarder : RequestForwarder} {number : ℕ}

theorem occurrences_fail (request : RequestForSession) (other : ℕ) :
    (forwarder.fail other request).occurrences number =
      forwarder.occurrences number + if other = number then 1 else 0 := by
  simp [occurrences, fail, count_singleton]
  omega

theorem occurrences_enqueue (request : Outstanding) (sendTime : ℤ) :
    (forwarder.enqueue request sendTime).occurrences number =
      forwarder.occurrences number + if forwarder.taken = number then 1 else 0 := by
  simp [occurrences, enqueue, count_singleton]
  omega

theorem count_errors_le (entries : List Forwarded) (response : Forwarded → ForwardResponse) :
    ((entries.filterMap fun entry => (response entry).onError.map (entry.number, ·)).map
      Prod.fst).count number ≤ (entries.map (·.number)).count number := by
  apply Sublist.count_le
  induction entries with
  | nil => exact .slnil
  | cons entry rest ih =>
    rw [filterMap_cons, map_cons]
    cases (response entry).onError with
    | none => exact ih.cons _
    | some error => exact ih.cons_cons _

theorem occurrences_processTimeoutRequest_le (operationTimeout now : ℤ) :
    (forwarder.processTimeoutRequest operationTimeout now).occurrences number ≤
      forwarder.occurrences number := by
  have errors := @count_errors_le number (forwarder.queue.takeWhile (·.late operationTimeout now))
    (·.request.makeResponse.setAppendEntryResult false timeoutCode)
  have parts := congrArg (fun queue => (queue.map (·.number)).count number)
    (@takeWhile_append_dropWhile _ (·.late operationTimeout now) forwarder.queue)
  simp only [map_append, count_append] at parts
  simp only [occurrences, processTimeoutRequest, map_append, count_append]
  omega

theorem occurrences_processResponse_le (response : ForwardResponse) :
    (forwarder.processResponse response).occurrences number ≤ forwarder.occurrences number := by
  unfold processResponse
  split
  next => exact le_rfl
  next entry found =>
    rcases find?_eq_some_iff_append.mp found with ⟨removes, earlier, later, isQueue, others⟩
    have erased : forwarder.queue.eraseP (response.removes ·.request) = earlier ++ later := by
      rw [isQueue, eraseP_append_right _ (by simpa using others), eraseP_cons, removes]
      rfl
    have errors : ((response.onError.map (entry.number, ·)).toList.map Prod.fst).count number ≤
        if entry.number == number then 1 else 0 := by
      cases response.onError <;> simp [count_singleton]
    simp only [erased]
    split <;> simp only [occurrences, isQueue, map_append, map_cons, count_append,
      count_cons, count_nil] <;> omega

/-- The condition on a step: `connection->send` does not throw for this request, which is in the
queue by then. -/
def Sends (number : ℕ) (forwarder : RequestForwarder) (call : ForwarderStep) : Prop :=
  match call with
  | .sendThrows => ∀ request, forwarder.sending ≠ some (number, request)
  | _ => True

def Once (number : ℕ) (forwarder : RequestForwarder) : Prop :=
  forwarder.occurrences number ≤ if number < forwarder.taken then 1 else 0

variable {after : RequestForwarder}

theorem Once.of_le (once : Once number forwarder) (sameTaken : after.taken = forwarder.taken)
    (less : after.occurrences number ≤ forwarder.occurrences number) : Once number after := by
  unfold Once at once ⊢
  rw [sameTaken]
  exact less.trans once

theorem Once.of_taken (once : Once number forwarder) (isTaken : after.taken = forwarder.taken + 1)
    (added : after.occurrences number =
      forwarder.occurrences number + if forwarder.taken = number then 1 else 0) :
    Once number after := by
  unfold Once at once ⊢
  rw [added, isTaken]
  split at once <;> split <;> split <;> omega

theorem Once.step {operationTimeout : ℤ} {call : ForwarderStep} (once : Once number forwarder)
    (sends : Sends number forwarder call)
    (steps : forwarder.step operationTimeout call = some after) : Once number after := by
  cases call with
  | refuse request =>
    rcases Option.ite_none_left_eq_some.mp steps with ⟨-, isAfter⟩
    cases isAfter
    exact once.of_taken rfl (@occurrences_fail forwarder number request forwarder.taken)
  | push request now =>
    rcases Option.ite_none_left_eq_some.mp steps with ⟨-, isAfter⟩
    cases isAfter
    exact once.of_taken rfl (occurrences_enqueue _ now)
  | pushSessions sessions now =>
    rcases Option.ite_none_left_eq_some.mp steps with ⟨-, isAfter⟩
    cases isAfter
    exact once.of_taken rfl (occurrences_enqueue _ now)
  | sendReturns =>
    cases steps
    exact once
  | sendThrows =>
    rcases Option.map_eq_some_iff.mp steps with ⟨⟨other, request⟩, isSending, rfl⟩
    have differs : other ≠ number := by
      rintro rfl
      exact sends request isSending
    have kept := @occurrences_fail forwarder number request other
    rw [if_neg differs] at kept
    exact @Once.of_le forwarder number { forwarder.fail other request with sending := none } once
      rfl kept.le
  | timeout now =>
    cases steps
    exact once.of_le rfl (occurrences_processTimeoutRequest_le _ now)
  | receive response =>
    cases steps
    refine once.of_le ?_ (occurrences_processResponse_le response)
    unfold processResponse
    split
    · rfl
    · split <;> rfl

end RequestForwarder

open RequestForwarder

/-- A request whose `send` does not throw is reported at most once, and never if it is accepted. -/
theorem reported_once {operationTimeout : ℤ} {number : ℕ} {forwarder : RequestForwarder}
    (reached : ReachableBy (step operationTimeout) (Sends number) {} forwarder) :
    (forwarder.reported.map Prod.fst).count number + forwarder.accepted.count number ≤ 1 := by
  have once : Once number forwarder :=
    reached.invariant (Once number) (Nat.zero_le _) fun once sends => once.step sends
  unfold Once occurrences at once
  split at once <;> omega

theorem reported_once_timeout : ∃ forwarder,
    ReachableBy (step 10) (Sends 0) {} forwarder ∧ forwarder.queue.length = 0 ∧
      (forwarder.reported.map Prod.fst).count 0 + forwarder.accepted.count 0 ≤ 1 := by
  refine exists_reached_of (·.queue.length = 0)
    [.push forwardedCreate.toRequestForSession 0, .sendReturns, .timeout 11] ?_ ?_
  · exact ⟨⟨trivial, trivial, trivial, trivial⟩, by decide +kernel⟩
  · exact fun reached isEmpty => ⟨isEmpty, reported_once reached⟩

/-- What could not be sent stays in the queue and is reported again when its time is over. -/
theorem reported_twice : ∃ forwarder, ReachableBy (step 10) (fun _ _ => True) {} forwarder ∧
    (forwarder.reported.map Prod.fst).count 0 = 2 := by
  refine exists_reached [.push forwardedCreate.toRequestForSession 0, .sendThrows, .timeout 11] ?_
  decide +kernel

end RaftKeeper
