import RaftKeeper.Common.Platform
import RaftKeeper.ZooKeeper.Types

/-!
# The request processor

`RequestProcessor` receives the requests of the local sessions through `push`, what Raft has
committed through `commit` and what could not be committed through `onError`. Its thread `run` moves
the requests to `pending_requests`, answers the reads at the head of each session, applies the
committed requests and then reports the failures.

A step is what the loop does between two places where another thread can be seen, and `Stage` is
where it stands. What a step gives to the store or to the response queue is returned beside the new
state. Of `ErrorRequest` the field `accepted`, which is only printed, is left out.
-/

namespace RaftKeeper

def isSessionRequest : OpNum → Bool
  | .newSession | .oldNewSession | .updateSession => true
  | _ => false

def isNewSessionRequest : OpNum → Bool
  | .newSession | .oldNewSession => true
  | _ => false

def authXid : Int32 := -4

def newSessionXid : Int32 := -256

def updateSessionXid : Int32 := -512

/-- The key of `error_request_ids`. -/
structure RequestId where
  sessionId : Int64
  xid : Int32
deriving DecidableEq

def RequestForSession.getRequestId (request : RequestForSession) : RequestId :=
  ⟨request.sessionId, request.xid⟩

/-- A failure as `onError` records it. -/
structure ErrorRequest where
  timeout : Bool
  sessionId : Int64
  xid : Int32
  opnum : OpNum

def ErrorRequest.getRequestId (error : ErrorRequest) : RequestId := ⟨error.sessionId, error.xid⟩

def ErrorRequest.code (error : ErrorRequest) : Error :=
  if error.timeout then .zoperationtimeout else .zconnectionloss

/-- Where the loop of `RequestProcessor::run` stands, with the sizes that it has sampled. -/
inductive Stage
  | waiting
  | sampling (committed : ℕ)
  | moving (runner committed errors : ℕ)
  /-- In `processReadRequests`, with the sessions that are left. -/
  | reading (runner : ℕ) (sessions : List Int64) (committed errors : ℕ)
  | committing (left errors : ℕ)
  /-- A committed request of this session is applied and not yet popped; `found` says whether
  it was found in the pending queue, for a request that is looked for there. -/
  | popping (session : Int64) (found : Option Bool) (left errors : ℕ)
  /-- In `processErrorRequest`, which holds the mutex until it is done. -/
  | failing (left : ℕ)
deriving DecidableEq

/-- What the processor's thread finds outside of it in a step. -/
structure Surroundings where
  isLocalSession : Int64 → Bool
  isLeaderAlive : Bool
  /-- The order in which the sessions of a runner are walked. -/
  order : Enumeration ℕ Int64
  now : Int64

/-- What a step hands over: a request to `KeeperStore::processRequest`, or a response. -/
inductive Handed
  | nothing
  | process (request : RequestForSession)
  | respond (response : ResponseForSession)

/-- `parallel` is fixed by `initialize`. `pending_requests` is a map from runners to maps from
sessions; as the session determines the runner, one map from sessions holds the same. -/
structure RequestProcessor where
  requestsQueue : ℕ → List RequestForSession := fun _ => []
  pendingRequests : Dict Int64 (List RequestForSession) := ∅
  committedQueue : List RequestForSession := []
  errorRequests : List ErrorRequest := []
  errorRequestIds : Finset RequestId := ∅
  stage : Stage := .waiting

def getRunnerId (parallel : ℕ) (session : Int64) : ℕ := session.toUInt64.toNat % parallel

/-- The number of requests a queue of `RequestsQueue` holds at most. -/
def requestsCapacity (parallel : ℕ) : ℕ := max 1 (20000 / parallel)

def committedCapacity : ℕ := 1000

def RequestForSession.failure (request : RequestForSession) (error : Error) :
    ResponseForSession where
  sessionId := request.sessionId
  xid := request.xid
  zxid := 0
  requestCreatedTimeMs := request.createTime
  response := { request.request.makeResponse with error := error }

def applyRequest (surroundings : Surroundings) (request : RequestForSession) : Handed :=
  if request.request.isReadRequest && !surroundings.isLeaderAlive then
    .respond (request.failure .zconnectionloss)
  else .process request

namespace RequestProcessor

variable (processor : RequestProcessor)

/-- `push`; the caller waits while the queue is full. -/
def push (parallel : ℕ) (request : RequestForSession) : Option RequestProcessor :=
  let runner := getRunnerId parallel request.sessionId
  let queue := processor.requestsQueue runner
  if queue.length < requestsCapacity parallel then
    some { processor with
      requestsQueue := Function.update processor.requestsQueue runner (queue ++ [request]) }
  else none

/-- `commit`; the caller waits while the queue is full. -/
def commit (request : RequestForSession) : Option RequestProcessor :=
  if processor.committedQueue.length < committedCapacity then
    some { processor with committedQueue := processor.committedQueue ++ [request] }
  else none

def holdsMutex : Bool :=
  match processor.stage with
  | .failing _ => true
  | _ => false

/-- `onError`; the caller waits for the mutex. -/
def onError (error : ErrorRequest) : Option RequestProcessor :=
  if processor.holdsMutex then none
  else
    some { processor with
      errorRequests := processor.errorRequests ++ [error]
      errorRequestIds := insert error.getRequestId processor.errorRequestIds }

def pending (session : Int64) : List RequestForSession :=
  (processor.pendingRequests.lookup session).getD []

def moveRequest (pendingRequests : Dict Int64 (List RequestForSession))
    (request : RequestForSession) : Dict Int64 (List RequestForSession) :=
  if request.request.getOpNum = .auth then pendingRequests
  else
    pendingRequests.insert request.sessionId
      ((pendingRequests.lookup request.sessionId).getD [] ++ [request])

/-- `moveRequestToPendingQueue`. Requests that arrive during the loop are behind the
sampled size. -/
def moveRequestToPendingQueue (runner : ℕ) : RequestProcessor :=
  { processor with
    requestsQueue := Function.update processor.requestsQueue runner []
    pendingRequests :=
      (processor.requestsQueue runner).foldl moveRequest processor.pendingRequests }

def sessionsOf (parallel runner : ℕ) : Finset Int64 :=
  processor.pendingRequests.keys.filter fun session => getRunnerId parallel session = runner

def readStep (surroundings : Surroundings) (runner : ℕ) (sessions : List Int64)
    (committed errors : ℕ) : RequestProcessor × Handed :=
  match sessions with
  | [] => ({ processor with stage := .moving (runner + 1) committed errors }, .nothing)
  | session :: rest =>
    match processor.pending session with
    | [] =>
      ({ processor with
          pendingRequests := processor.pendingRequests.erase session
          stage := .reading runner rest committed errors }, .nothing)
    | request :: others =>
      if request.request.isReadRequest then
        ({ processor with
            pendingRequests := processor.pendingRequests.insert session others
            stage := .reading runner sessions committed errors },
          applyRequest surroundings request)
      else
        ({ processor with stage := .reading runner rest committed errors }, .nothing)

/-- `shouldProcessCommittedRequest`: the request as it is applied and whether it was found in the
pending queue, or `none` when the loop has to end. -/
def shouldProcessCommittedRequest (request : RequestForSession) :
    Option (RequestForSession × Bool) :=
  match processor.pending request.sessionId with
  | [] => some (request, false)
  | first :: _ =>
    if first.xid = request.xid then some ({ request with createTime := first.createTime }, true)
    else if first.request.isReadRequest then none
    else if first.getRequestId ∈ processor.errorRequestIds then none
    else some (request, false)

def beginErrors (errors : ℕ) : RequestProcessor :=
  { processor with
    stage := if processor.errorRequestIds = ∅ then .waiting else .failing errors }

def commitStep (surroundings : Surroundings) (left errors : ℕ) : RequestProcessor × Handed :=
  match processor.committedQueue with
  | [] => ({ processor with stage := .committing left errors }, .nothing)
  | request :: _ =>
    let session := request.sessionId
    let apply := applyRequest surroundings
    if isSessionRequest request.request.getOpNum then
      ({ processor with stage := .popping session none left errors }, apply request)
    else if !surroundings.isLocalSession session then
      ({ processor with
          pendingRequests := processor.pendingRequests.erase session
          stage := .popping session none left errors }, apply request)
    else if request.request.getOpNum = .auth then
      ({ processor with stage := .popping session none left errors }, apply request)
    else
      match processor.shouldProcessCommittedRequest request with
      | none => (processor.beginErrors errors, .nothing)
      | some (applied, found) =>
        ({ processor with stage := .popping session (some found) left errors }, apply applied)

/-- What is left in the pending queue of a session after one of its requests was applied. -/
def dropApplied (session : Int64) (found : Bool) : Dict Int64 (List RequestForSession) :=
  let rest := if found then (processor.pending session).tail else processor.pending session
  if rest.isEmpty then processor.pendingRequests.erase session
  else processor.pendingRequests.insert session rest

def popStep (session : Int64) (found : Option Bool) (left errors : ℕ) : RequestProcessor :=
  { processor with
    committedQueue := processor.committedQueue.tail
    pendingRequests :=
      match found with
      | none => processor.pendingRequests
      | some found => processor.dropApplied session found
    stage := .committing left errors }

def matchesError (error : ErrorRequest) (request : RequestForSession) : Bool :=
  request.xid = error.xid || (request.request.getOpNum = .close && error.opnum = .close)

/-- The request `findErrorRequest` makes up for an Auth, which is not in the pending queue; its
`xid` is not set. -/
def authRequest (session now : Int64) : RequestForSession where
  sessionId := session
  xid := 0
  request := .single (.auth 0 [] [])
  createTime := now

/-- `findErrorRequest`, with what it leaves of `pending_requests`. -/
def findErrorRequest (now : Int64) (error : ErrorRequest) :
    Option RequestForSession × Dict Int64 (List RequestForSession) :=
  if error.xid = authXid then (some (authRequest error.sessionId now), processor.pendingRequests)
  else
    match processor.pendingRequests.lookup error.sessionId with
    | none => (none, processor.pendingRequests)
    | some requests =>
      match requests.find? (matchesError error) with
      | none => (none, processor.pendingRequests)
      | some request =>
        (some request, processor.pendingRequests.insert error.sessionId
          (requests.eraseP (matchesError error)))

def sessionErrorResponse (now : Int64) (error : ErrorRequest) : ResponseForSession where
  sessionId := error.sessionId
  xid := error.xid
  zxid := 0
  requestCreatedTimeMs := now
  response :=
    { error := error.code
      payload :=
        if isNewSessionRequest error.opnum then .newSession error.sessionId 0 0 false
        else .updateSession error.sessionId 0 false }

/-- A turn of the loop of `processErrorRequest`; `error_requests.front()` has to be there. -/
def errorStep (surroundings : Surroundings) (left : ℕ) : Option (RequestProcessor × Handed) :=
  match processor.errorRequests with
  | [] => none
  | error :: rest =>
    let popped := { processor with
      errorRequests := rest
      errorRequestIds := processor.errorRequestIds.erase error.getRequestId
      stage := .failing left }
    if isSessionRequest error.opnum then
      some (popped, .respond (sessionErrorResponse surroundings.now error))
    else if !surroundings.isLocalSession error.sessionId then
      some ({ popped with
        pendingRequests := processor.pendingRequests.erase error.sessionId }, .nothing)
    else
      match processor.findErrorRequest surroundings.now error with
      | (none, pendingRequests) =>
        some ({ popped with pendingRequests := pendingRequests }, .nothing)
      | (some request, pendingRequests) =>
        some ({ popped with pendingRequests := pendingRequests },
          .respond (request.failure error.code))

/-- A step of the loop in `RequestProcessor::run`; nothing while it waits in vain. -/
def step (parallel : ℕ) (surroundings : Surroundings) : Option (RequestProcessor × Handed) :=
  match processor.stage with
  | .waiting =>
    some ({ processor with stage := .sampling processor.committedQueue.length }, .nothing)
  | .sampling committed =>
    some ({ processor with stage := .moving 0 committed processor.errorRequestIds.card }, .nothing)
  | .moving runner committed errors =>
    if runner < parallel then
      let moved := processor.moveRequestToPendingQueue runner
      let sessions := surroundings.order.list runner (moved.sessionsOf parallel runner)
      some ({ moved with stage := .reading runner sessions committed errors }, .nothing)
    else some ({ processor with stage := .committing committed errors }, .nothing)
  | .reading runner sessions committed errors =>
    some (processor.readStep surroundings runner sessions committed errors)
  | .committing 0 errors => some (processor.beginErrors errors, .nothing)
  | .committing (left + 1) errors => some (processor.commitStep surroundings left errors)
  | .popping session found left errors =>
    some (processor.popStep session found left errors, .nothing)
  | .failing 0 => some ({ processor with stage := .waiting }, .nothing)
  | .failing (left + 1) => processor.errorStep surroundings left

end RequestProcessor

/-- What other threads tell the processor, and the steps of its own thread. -/
inductive ProcessorCall
  | push (request : RequestForSession)
  | commit (request : RequestForSession)
  | onError (error : ErrorRequest)
  | run (surroundings : Surroundings)

/-- The processor with everything it was given and everything it has handed over so far. -/
structure ProcessorHistory where
  processor : RequestProcessor := {}
  pushed : List RequestForSession := []
  committed : List RequestForSession := []
  reported : List ErrorRequest := []
  processed : List RequestForSession := []
  responded : List ResponseForSession := []

namespace ProcessorHistory

def hand (history : ProcessorHistory) : Handed → ProcessorHistory
  | .nothing => history
  | .process request => { history with processed := history.processed ++ [request] }
  | .respond response => { history with responded := history.responded ++ [response] }

@[simp]
theorem hand_processor (history : ProcessorHistory) (handed : Handed) :
    (history.hand handed).processor = history.processor := by
  cases handed <;> rfl

@[simp]
theorem hand_pushed (history : ProcessorHistory) (handed : Handed) :
    (history.hand handed).pushed = history.pushed := by
  cases handed <;> rfl

@[simp]
theorem hand_reported (history : ProcessorHistory) (handed : Handed) :
    (history.hand handed).reported = history.reported := by
  cases handed <;> rfl

@[simp]
theorem hand_committed (history : ProcessorHistory) (handed : Handed) :
    (history.hand handed).committed = history.committed := by
  cases handed <;> rfl

def next (parallel : ℕ) (history : ProcessorHistory) : ProcessorCall → Option ProcessorHistory
  | .push request =>
    (history.processor.push parallel request).map fun processor =>
      { history with processor := processor, pushed := history.pushed ++ [request] }
  | .commit request =>
    (history.processor.commit request).map fun processor =>
      { history with processor := processor, committed := history.committed ++ [request] }
  | .onError error =>
    (history.processor.onError error).map fun processor =>
      { history with processor := processor, reported := history.reported ++ [error] }
  | .run surroundings =>
    (history.processor.step parallel surroundings).map fun (processor, handed) =>
      { history with processor := processor }.hand handed

end ProcessorHistory

def Surroundings.sample (isLocal : Bool) : Surroundings where
  isLocalSession _ := isLocal
  isLeaderAlive := true
  order := .sortedBy sessionKey sessionKey_injective
  now := 0

end RaftKeeper
