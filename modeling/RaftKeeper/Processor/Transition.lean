import RaftKeeper.Processor.RequestProcessor

/-!
# What one step of the processor can do

`Transition` lists what a step of `run` can do. Two views of a state do not depend on where between
application and removal the loop stands: `unapplied`, what is left of the committed queue, and
`waitingOf`, what is left of the pending requests of a session.
-/

namespace RaftKeeper

open List RequestProcessor

namespace RequestProcessor

variable {parallel : ℕ} {surroundings : Surroundings} {processor after : RequestProcessor}
  {handed : Handed}

/-- Everything that a step of the processor's thread can do, with the condition for it. -/
inductive Transition (parallel : ℕ) (surroundings : Surroundings) (processor : RequestProcessor) :
    RequestProcessor → Handed → Prop
  | sample (stands : processor.stage = .waiting) :
      Transition parallel surroundings processor
        { processor with stage := .sampling processor.committedQueue.length } .nothing
  | sampleErrors {committed : ℕ} (stands : processor.stage = .sampling committed) :
      Transition parallel surroundings processor
        { processor with stage := .moving 0 committed processor.errorRequestIds.card } .nothing
  | move {runner committed errors : ℕ} {moved : RequestProcessor}
      (stands : processor.stage = .moving runner committed errors) (isRunner : runner < parallel)
      (isMoved : processor.moveRequestToPendingQueue runner = moved) :
      Transition parallel surroundings processor
        { moved with
          stage := .reading runner
            (surroundings.order.list runner (moved.sessionsOf parallel runner)) committed errors }
        .nothing
  | movedAll {runner committed errors : ℕ}
      (stands : processor.stage = .moving runner committed errors) (noRunner : parallel ≤ runner) :
      Transition parallel surroundings processor
        { processor with stage := .committing committed errors } .nothing
  | readAll {runner committed errors : ℕ}
      (stands : processor.stage = .reading runner [] committed errors) :
      Transition parallel surroundings processor
        { processor with stage := .moving (runner + 1) committed errors } .nothing
  | eraseSession {runner committed errors : ℕ} {session : Int64} {rest : List Int64}
      (stands : processor.stage = .reading runner (session :: rest) committed errors)
      (isEmpty : processor.pending session = []) :
      Transition parallel surroundings processor
        { processor with
          pendingRequests := processor.pendingRequests.erase session
          stage := .reading runner rest committed errors } .nothing
  | read {runner committed errors : ℕ} {session : Int64} {rest : List Int64}
      {request : RequestForSession} {others : List RequestForSession}
      (stands : processor.stage = .reading runner (session :: rest) committed errors)
      (first : processor.pending session = request :: others)
      (isRead : request.request.isReadRequest = true) :
      Transition parallel surroundings processor
        { processor with
          pendingRequests := processor.pendingRequests.insert session others
          stage := .reading runner (session :: rest) committed errors }
        (applyRequest surroundings request)
  | stopAtWrite {runner committed errors : ℕ} {session : Int64} {rest : List Int64}
      {request : RequestForSession} {others : List RequestForSession}
      (stands : processor.stage = .reading runner (session :: rest) committed errors)
      (first : processor.pending session = request :: others)
      (isWrite : request.request.isReadRequest = false) :
      Transition parallel surroundings processor
        { processor with stage := .reading runner rest committed errors } .nothing
  | committedAll {errors : ℕ} (stands : processor.stage = .committing 0 errors) :
      Transition parallel surroundings processor (processor.beginErrors errors) .nothing
  | peekNone {left errors : ℕ} (stands : processor.stage = .committing (left + 1) errors)
      (isEmpty : processor.committedQueue = []) :
      Transition parallel surroundings processor
        { processor with stage := .committing left errors } .nothing
  | applySession {left errors : ℕ} {request : RequestForSession} {rest : List RequestForSession}
      (stands : processor.stage = .committing (left + 1) errors)
      (first : processor.committedQueue = request :: rest)
      (isSession : isSessionRequest request.request.getOpNum = true) :
      Transition parallel surroundings processor
        { processor with stage := .popping request.sessionId none left errors }
        (applyRequest surroundings request)
  | applyRemote {left errors : ℕ} {request : RequestForSession} {rest : List RequestForSession}
      (stands : processor.stage = .committing (left + 1) errors)
      (first : processor.committedQueue = request :: rest)
      (noSession : isSessionRequest request.request.getOpNum = false)
      (isRemote : surroundings.isLocalSession request.sessionId = false) :
      Transition parallel surroundings processor
        { processor with
          pendingRequests := processor.pendingRequests.erase request.sessionId
          stage := .popping request.sessionId none left errors }
        (applyRequest surroundings request)
  | applyAuth {left errors : ℕ} {request : RequestForSession} {rest : List RequestForSession}
      (stands : processor.stage = .committing (left + 1) errors)
      (first : processor.committedQueue = request :: rest)
      (isAuth : request.request.getOpNum = .auth) :
      Transition parallel surroundings processor
        { processor with stage := .popping request.sessionId none left errors }
        (applyRequest surroundings request)
  | stopAtPending {left errors : ℕ} {request : RequestForSession} {rest : List RequestForSession}
      (stands : processor.stage = .committing (left + 1) errors)
      (first : processor.committedQueue = request :: rest)
      (noSession : isSessionRequest request.request.getOpNum = false)
      (isLocal : surroundings.isLocalSession request.sessionId = true)
      (noAuth : request.request.getOpNum ≠ .auth)
      (stops : processor.shouldProcessCommittedRequest request = none) :
      Transition parallel surroundings processor (processor.beginErrors errors) .nothing
  | applyLocal {left errors : ℕ} {request applied : RequestForSession}
      {rest : List RequestForSession} {found : Bool}
      (stands : processor.stage = .committing (left + 1) errors)
      (first : processor.committedQueue = request :: rest)
      (noSession : isSessionRequest request.request.getOpNum = false)
      (isLocal : surroundings.isLocalSession request.sessionId = true)
      (noAuth : request.request.getOpNum ≠ .auth)
      (should : processor.shouldProcessCommittedRequest request = some (applied, found)) :
      Transition parallel surroundings processor
        { processor with stage := .popping request.sessionId (some found) left errors }
        (applyRequest surroundings applied)
  | pop {left errors : ℕ} {session : Int64} {found : Option Bool}
      (stands : processor.stage = .popping session found left errors) :
      Transition parallel surroundings processor
        (processor.popStep session found left errors) .nothing
  | failedAll (stands : processor.stage = .failing 0) :
      Transition parallel surroundings processor { processor with stage := .waiting } .nothing
  | fail {left : ℕ} {after : RequestProcessor} {handed : Handed}
      (stands : processor.stage = .failing (left + 1))
      (fails : processor.errorStep surroundings left = some (after, handed)) :
      Transition parallel surroundings processor after handed

variable {runner errors : ℕ}

theorem Transition.of_readStep {committed : ℕ} {sessions : List Int64}
    (stands : processor.stage = .reading runner sessions committed errors)
    (reads : processor.readStep surroundings runner sessions committed errors = (after, handed)) :
    Transition parallel surroundings processor after handed := by
  cases sessions with
  | nil =>
    cases reads
    exact .readAll stands
  | cons session rest =>
    cases first : processor.pending session with
    | nil =>
      simp only [readStep, first] at reads
      cases reads
      exact .eraseSession stands first
    | cons request others =>
      simp only [readStep, first] at reads
      split at reads
      next isRead =>
        cases reads
        exact .read stands first isRead
      next isWrite =>
        cases reads
        exact .stopAtWrite stands first (by simpa using isWrite)

variable {left : ℕ}

theorem Transition.of_commitStep (stands : processor.stage = .committing (left + 1) errors)
    (commits : processor.commitStep surroundings left errors = (after, handed)) :
    Transition parallel surroundings processor after handed := by
  cases first : processor.committedQueue with
  | nil =>
    simp only [commitStep, first] at commits
    cases commits
    rw [← first]
    exact .peekNone stands first
  | cons request rest =>
    simp only [commitStep, first] at commits
    split at commits
    · cases commits
      rw [← first]
      exact .applySession stands first ‹_›
    · rename_i noSession
      have noSession : isSessionRequest request.request.getOpNum = false := by
        simpa using noSession
      split at commits
      · cases commits
        rw [← first]
        exact .applyRemote stands first noSession (by simpa using ‹(!_) = true›)
      · rename_i isLocal
        have isLocal : surroundings.isLocalSession request.sessionId = true := by
          simpa using isLocal
        split at commits
        · cases commits
          rw [← first]
          exact .applyAuth stands first ‹_›
        · rename_i noAuth
          split at commits
          · cases commits
            exact .stopAtPending stands first noSession isLocal noAuth ‹_›
          · cases commits
            rw [← first]
            exact .applyLocal stands first noSession isLocal noAuth ‹_›

theorem Transition.of_step (moves : processor.step parallel surroundings = some (after, handed)) :
    Transition parallel surroundings processor after handed := by
  unfold step at moves
  split at moves
  next stands =>
    cases moves
    exact .sample stands
  next stands =>
    cases moves
    exact .sampleErrors stands
  next stands =>
    split at moves
    · cases moves
      exact .move stands ‹_› rfl
    · cases moves
      exact .movedAll stands (by omega)
  next stands => exact .of_readStep stands (Option.some.inj moves)
  next stands =>
    cases moves
    exact .committedAll stands
  next stands => exact .of_commitStep stands (Option.some.inj moves)
  next stands =>
    cases moves
    exact .pop stands
  next stands =>
    cases moves
    exact .failedAll stands
  next stands => exact .fail stands moves

theorem step_isSome
    (listed : ∀ left, processor.stage = .failing (left + 1) → processor.errorRequests ≠ []) :
    (processor.step parallel surroundings).isSome := by
  unfold step
  split
  all_goals try rfl
  · split <;> rfl
  · rename_i left stands
    unfold errorStep
    split
    next isEmpty => exact absurd isEmpty (listed left stands)
    next =>
      dsimp only
      repeat' split
      all_goals rfl

variable {request : RequestForSession} {applied : RequestForSession} {found : Bool}

theorem shouldProcess_cases
    (should : processor.shouldProcessCommittedRequest request = some (applied, found)) :
    (∃ head others, processor.pending request.sessionId = head :: others ∧
      head.xid = request.xid ∧ found = true ∧
      applied = { request with createTime := head.createTime }) ∨
    found = false ∧ applied = request ∧
      ∀ head ∈ (processor.pending request.sessionId).head?, head.xid ≠ request.xid ∧
        head.request.isReadRequest = false ∧
        head.getRequestId ∉ processor.errorRequestIds := by
  unfold shouldProcessCommittedRequest at should
  split at should
  next isEmpty =>
    cases should
    exact .inr ⟨rfl, rfl, by simp [isEmpty]⟩
  next head others pending_eq =>
    split at should
    next same =>
      cases should
      exact .inl ⟨head, others, pending_eq, same, rfl, rfl⟩
    next different =>
      split at should
      · cases should
      next notRead =>
        split at should
        · cases should
        next notMarked =>
          cases should
          refine .inr ⟨rfl, rfl, ?_⟩
          intro other isHead
          rw [pending_eq] at isHead
          cases isHead
          exact ⟨different, by simpa using notRead, notMarked⟩

theorem shouldProcess_eq_some
    (should : processor.shouldProcessCommittedRequest request = some (applied, found)) :
    ∃ createTime, applied = { request with createTime := createTime } := by
  rcases shouldProcess_cases should with ⟨head, _, _, _, _, rfl⟩ | ⟨_, rfl, _⟩
  · exact ⟨_, rfl⟩
  · exact ⟨applied.createTime, rfl⟩

theorem errorStep_cases (fails : processor.errorStep surroundings left = some (after, handed)) :
    ∃ error rest pendingRequests, processor.errorRequests = error :: rest ∧
      after = { processor with
        errorRequests := rest
        errorRequestIds := processor.errorRequestIds.erase error.getRequestId
        pendingRequests := pendingRequests
        stage := .failing left } ∧
      (isSessionRequest error.opnum = true ∧ pendingRequests = processor.pendingRequests ∧
          handed = .respond (sessionErrorResponse surroundings.now error) ∨
        isSessionRequest error.opnum = false ∧ surroundings.isLocalSession error.sessionId = false ∧
          pendingRequests = processor.pendingRequests.erase error.sessionId ∧ handed = .nothing ∨
        isSessionRequest error.opnum = false ∧ surroundings.isLocalSession error.sessionId = true ∧
          pendingRequests = (processor.findErrorRequest surroundings.now error).2 ∧
          handed = match (processor.findErrorRequest surroundings.now error).1 with
            | none => .nothing
            | some request => .respond (request.failure error.code)) := by
  unfold errorStep at fails
  split at fails
  · cases fails
  next error rest isErrors =>
    dsimp only at fails
    split at fails
    next isSession =>
      cases fails
      exact ⟨error, rest, _, isErrors, rfl, .inl ⟨isSession, rfl, rfl⟩⟩
    next noSession =>
      have noSession : isSessionRequest error.opnum = false := by simpa using noSession
      split at fails
      next isRemote =>
        cases fails
        exact ⟨error, rest, _, isErrors, rfl, .inr
          (.inl ⟨noSession, by simpa using isRemote, rfl, rfl⟩)⟩
      next isLocal =>
        have isLocal : surroundings.isLocalSession error.sessionId = true := by simpa using isLocal
        split at fails
        next isFound =>
          cases fails
          exact ⟨error, rest, _, isErrors, rfl, .inr (.inr ⟨noSession, isLocal, by rw [isFound],
            by rw [isFound]⟩)⟩
        next isFound =>
          cases fails
          exact ⟨error, rest, _, isErrors, rfl, .inr (.inr ⟨noSession, isLocal, by rw [isFound],
            by rw [isFound]⟩)⟩

theorem errorStep_frame (fails : processor.errorStep surroundings left = some (after, handed)) :
    after.requestsQueue = processor.requestsQueue ∧
      after.committedQueue = processor.committedQueue ∧ after.stage = .failing left ∧
      ∀ request, handed ≠ .process request := by
  rcases errorStep_cases fails with ⟨error, rest, pendingRequests, _, rfl, isCase⟩
  refine ⟨rfl, rfl, rfl, ?_⟩
  intro request isProcessed
  rcases isCase with ⟨_, _, rfl⟩ | ⟨_, _, _, rfl⟩ | ⟨_, _, _, rfl⟩
  · cases isProcessed
  · cases isProcessed
  · split at isProcessed <;> cases isProcessed

@[simp]
theorem pending_mk (requestsQueue : ℕ → List RequestForSession)
    (pendingRequests : Dict Int64 (List RequestForSession))
    (committedQueue : List RequestForSession)
    (errorRequests : List ErrorRequest) (errorRequestIds : Finset RequestId) (stage : Stage)
    (session : Int64) :
    (RequestProcessor.mk requestsQueue pendingRequests committedQueue errorRequests errorRequestIds
      stage).pending session = (pendingRequests.lookup session).getD [] := rfl

theorem pending_erase (session other : Int64) :
    ((processor.pendingRequests.erase session).lookup other).getD [] =
      if other = session then [] else processor.pending other := by
  rw [Finmap.lookup_erase_ite]
  split <;> rfl

theorem pending_insert (session other : Int64) (requests : List RequestForSession) :
    ((processor.pendingRequests.insert session requests).lookup other).getD [] =
      if other = session then requests else processor.pending other := by
  rw [Finmap.lookup_insert_ite]
  split <;> rfl

theorem pending_dropApplied (session other : Int64) (found : Bool) :
    ((processor.dropApplied session found).lookup other).getD [] =
      if other = session then
        if found then (processor.pending session).tail else processor.pending session
      else processor.pending other := by
  unfold dropApplied
  dsimp only
  generalize (if found then (processor.pending session).tail else processor.pending session) = rest
  by_cases isEmpty : rest = []
  · rw [isEmpty, isEmpty_nil, if_pos rfl, pending_erase]
  · rw [if_neg (by simpa using isEmpty), pending_insert]

def movedOf (session : Int64) (requests : List RequestForSession) : List RequestForSession :=
  requests.filter fun request => request.sessionId = session && request.request.getOpNum ≠ .auth

theorem lookup_foldl_moveRequest (requests : List RequestForSession)
    (pendingRequests : Dict Int64 (List RequestForSession)) (session : Int64) :
    ((requests.foldl moveRequest pendingRequests).lookup session).getD [] =
      (pendingRequests.lookup session).getD [] ++ movedOf session requests := by
  induction requests generalizing pendingRequests with
  | nil => exact (append_nil _).symm
  | cons request rest ih =>
    rw [foldl_cons, ih, moveRequest]
    by_cases isAuth : request.request.getOpNum = .auth
    · simp [isAuth, movedOf]
    · by_cases isSession : request.sessionId = session
      · subst isSession
        simp [isAuth, movedOf]
      · simp [isAuth, isSession, Ne.symm isSession, movedOf]

theorem pending_move (runner : ℕ) (session : Int64) :
    (processor.moveRequestToPendingQueue runner).pending session =
      processor.pending session ++ movedOf session (processor.requestsQueue runner) :=
  lookup_foldl_moveRequest _ _ _

variable {other : Int64} {error : ErrorRequest}

theorem mem_of_mem_findErrorRequest {now : Int64}
    (isMember : request ∈ ((processor.findErrorRequest now error).2.lookup other).getD []) :
    request ∈ processor.pending other := by
  unfold findErrorRequest at isMember
  split at isMember
  · exact isMember
  · split at isMember
    · exact isMember
    next requests found =>
      split at isMember
      · exact isMember
      · rw [pending_insert] at isMember
        split at isMember
        next isSession =>
          rw [isSession, pending, found]
          exact mem_of_mem_eraseP isMember
        next => exact isMember

theorem findErrorRequest_frame (now : Int64) (error : ErrorRequest) :
    (∀ {session}, session ≠ error.sessionId →
      ((processor.findErrorRequest now error).2.lookup session).getD [] =
        processor.pending session) ∧
    ∀ {request}, (processor.findErrorRequest now error).1 = some request →
      request = authRequest error.sessionId now ∨ request ∈ processor.pending error.sessionId := by
  unfold findErrorRequest
  split
  · exact ⟨fun _ => rfl, fun isFound => .inl (Option.some.inj isFound).symm⟩
  · split
    · exact ⟨fun _ => rfl, fun isFound => by cases isFound⟩
    next requests isPending =>
      split
      · exact ⟨fun _ => rfl, fun isFound => by cases isFound⟩
      next found =>
        constructor
        · intro session isOther
          rw [pending_insert, if_neg isOther]
        · intro request isFound
          cases isFound
          rw [pending, isPending]
          exact .inr (mem_of_find?_eq_some found)

theorem mem_of_mem_errorStep
    (fails : processor.errorStep surroundings left = some (after, handed))
    (isMember : request ∈ after.pending other) : request ∈ processor.pending other := by
  rcases errorStep_cases fails with ⟨error, rest, pendingRequests, _, rfl, isCase⟩
  rcases isCase with ⟨_, rfl, _⟩ | ⟨_, _, rfl, _⟩ | ⟨_, _, rfl, _⟩
  · exact isMember
  · rw [pending_mk, pending_erase] at isMember
    split at isMember
    · cases isMember
    · exact isMember
  · exact mem_of_mem_findErrorRequest isMember

theorem errorRequests_transition (moves : Transition parallel surroundings processor after handed)
    (isMember : error ∈ after.errorRequests) : error ∈ processor.errorRequests := by
  cases moves with
  | move _ _ isMoved =>
    subst isMoved
    exact isMember
  | fail stands fails =>
    rcases errorStep_cases fails with ⟨_, rest, _, isErrors, rfl, _⟩
    rw [isErrors]
    exact mem_cons_of_mem _ isMember
  | _ => exact isMember

theorem mem_pending_transition (moves : Transition parallel surroundings processor after handed)
    (isMember : request ∈ after.pending other) :
    request ∈ processor.pending other ∨
      request.sessionId = other ∧ ∃ runner, request ∈ processor.requestsQueue runner := by
  cases moves with
  | @move runner _ _ _ _ _ isMoved =>
    subst isMoved
    have moved := @pending_move processor runner other
    rw [pending] at moved
    rw [pending_mk, moved] at isMember
    rcases mem_append.mp isMember with isOld | isNew
    · exact .inl isOld
    · rcases mem_filter.mp isNew with ⟨isQueued, isOwn⟩
      exact .inr ⟨by simp_all, runner, isQueued⟩
  | eraseSession =>
    rw [pending_mk, pending_erase] at isMember
    split at isMember
    · cases isMember
    · exact .inl isMember
  | read _ first _ =>
    rw [pending_mk, pending_insert] at isMember
    split at isMember
    next isSession =>
      rw [isSession, first]
      exact .inl (mem_cons_of_mem _ isMember)
    next => exact .inl isMember
  | applyRemote =>
    rw [pending_mk, pending_erase] at isMember
    split at isMember
    · cases isMember
    · exact .inl isMember
  | pop stands =>
    rename_i _ _ session found
    cases found with
    | none => exact .inl isMember
    | some found =>
      rw [popStep, pending_mk, pending_dropApplied] at isMember
      split at isMember
      next isSession =>
        subst isSession
        split at isMember
        · exact .inl (mem_of_mem_tail isMember)
        · exact .inl isMember
      next => exact .inl isMember
  | fail _ fails => exact .inl (mem_of_mem_errorStep fails isMember)
  | _ => exact .inl isMember

theorem requestsQueue_transition (moves : Transition parallel surroundings processor after handed)
    (isMember : request ∈ after.requestsQueue runner) :
    request ∈ processor.requestsQueue runner := by
  cases moves with
  | move _ _ isMoved =>
    subst isMoved
    simp only [moveRequestToPendingQueue, Function.update_apply] at isMember
    split at isMember
    · cases isMember
    · exact isMember
  | fail _ fails => exact (errorStep_frame fails).1 ▸ isMember
  | _ => exact isMember

def unapplied (processor : RequestProcessor) : List RequestForSession :=
  match processor.stage with
  | .popping .. => processor.committedQueue.tail
  | _ => processor.committedQueue

def PopSound (processor : RequestProcessor) : Prop :=
  ∀ {session found left errors}, processor.stage = .popping session found left errors →
    processor.committedQueue ≠ []

theorem popSound_transition
    (moves : Transition parallel surroundings processor after handed) : after.PopSound := by
  intro session found left errors pops
  cases moves with
  | applySession _ first | applyRemote _ first | applyAuth _ first | applyLocal _ first =>
    simp [first]
  | committedAll | stopAtPending =>
    simp only [beginErrors] at pops
    split at pops <;> cases pops
  | move _ _ isMoved =>
    subst isMoved
    cases pops
  | fail _ fails =>
    rw [(errorStep_frame fails).2.2.1] at pops
    cases pops
  | _ => cases pops

theorem committedQueue_transition (moves : Transition parallel surroundings processor after handed)
    (isMember : request ∈ after.committedQueue) : request ∈ processor.committedQueue := by
  cases moves with
  | move _ _ isMoved =>
    subst isMoved
    exact isMember
  | pop => exact mem_of_mem_tail isMember
  | fail _ fails => exact (errorStep_frame fails).2.1 ▸ isMember
  | _ => exact isMember

theorem unapplied_commit {request : RequestForSession} (popSound : processor.PopSound) :
    unapplied { processor with committedQueue := processor.committedQueue ++ [request] } =
      processor.unapplied ++ [request] := by
  cases stands : processor.stage with
  | popping other found left errors =>
    simp only [unapplied, stands]
    exact tail_append_of_ne_nil (popSound stands)
  | _ => simp [unapplied, stands]

/-- The pending requests of a session that are not applied. -/
def waitingOf (processor : RequestProcessor) (session : Int64) : List RequestForSession :=
  match processor.stage with
  | .popping other (some true) _ _ =>
    if session = other then (processor.pending session).tail else processor.pending session
  | _ => processor.pending session

end RequestProcessor

@[simp]
def Stage.sampled : Stage → ℕ
  | .waiting | .failing _ => 0
  | .sampling committed | .moving _ committed _ | .reading _ _ committed _ => committed
  | .committing left _ | .popping _ _ left _ => left

@[simp]
def Stage.failures : Stage → ℕ
  | .waiting | .sampling _ => 0
  | .moving _ _ errors | .reading _ _ _ errors | .committing _ errors | .popping _ _ _ errors =>
    errors
  | .failing left => left

/-- Whether the requests of a runner were moved since the failures were counted. -/
@[simp]
def Stage.hasMovedForErrors (runner : ℕ) : Stage → Bool
  | .waiting | .sampling _ => false
  | .moving current _ _ => runner < current
  | .reading current _ _ _ => runner ≤ current
  | .committing .. | .popping .. | .failing _ => true

/-- Whether the requests of a runner were moved since the committed requests were counted. -/
@[simp]
def Stage.hasMoved (runner : ℕ) : Stage → Bool
  | .waiting | .sampling _ | .failing _ => false
  | .moving current _ _ => runner < current
  | .reading current _ _ _ => runner ≤ current
  | .committing .. | .popping .. => true

/-- A request without its times: `processTime` is set by the leader, and `createTime` is not
written to the log. -/
def RequestForSession.content (request : RequestForSession) : Int32 × Request :=
  (request.xid, request.request)

def isWrite (content : Int32 × Request) : Bool := !content.2.isReadRequest

/-- Neither a session request nor an Auth: these are not pushed to the processor. -/
def Request.Ordinary (request : Request) : Prop :=
  isSessionRequest request.getOpNum = false ∧ request.getOpNum ≠ .auth

instance {request : Request} : Decidable request.Ordinary := inferInstanceAs (Decidable (_ ∧ _))

theorem Request.Ordinary.of_isRead {request : Request} (isRead : request.isReadRequest = true) :
    request.Ordinary := by
  cases request with
  | single request =>
    cases request with
    | list kind path hasWatch =>
      cases kind <;> exact ⟨rfl, by simp [getOpNum, SingleRequest.getOpNum]⟩
    | heartbeat | setWatches _ | «exists» _ _ | get _ _ | getACL _ =>
      exact ⟨rfl, by simp [getOpNum, SingleRequest.getOpNum]⟩
    | _ => cases isRead
  | multi operationType requests => cases operationType <;> exact ⟨rfl, by simp [getOpNum]⟩

/-- The ordinary requests of a session, each as its `xid` and its body. -/
def ofSession (session : Int64) (requests : List RequestForSession) : List (Int32 × Request) :=
  (requests.filter fun request =>
    request.sessionId = session ∧ request.request.Ordinary).map (·.content)

section

variable {session : Int64} {request : RequestForSession}

@[simp]
theorem ofSession_nil : ofSession session [] = [] := rfl

@[simp]
theorem ofSession_append (first second : List RequestForSession) :
    ofSession session (first ++ second) = ofSession session first ++ ofSession session second := by
  simp [ofSession]

theorem ofSession_cons_of_own (isOwn : request.sessionId = session)
    (ordinary : request.request.Ordinary) (rest : List RequestForSession) :
    ofSession session (request :: rest) = request.content :: ofSession session rest := by
  simp [ofSession, isOwn, ordinary]

theorem ofSession_cons_of_other
    (isOther : request.sessionId = session → ¬ request.request.Ordinary)
    (rest : List RequestForSession) :
    ofSession session (request :: rest) = ofSession session rest := by
  by_cases isOwn : request.sessionId = session
  · simp [ofSession, isOther isOwn]
  · simp [ofSession, isOwn]

variable {requests : List RequestForSession} {content : Int32 × Request}

theorem ordinary_of_mem_ofSession (isMember : content ∈ ofSession session requests) :
    content.2.Ordinary := by
  rcases mem_map.mp isMember with ⟨request, isFiltered, rfl⟩
  exact (of_decide_eq_true (mem_filter.mp isFiltered).2).2

theorem mem_ofSession_append_singleton
    (isMember : content ∈ ofSession session (requests ++ [request])) :
    content ∈ ofSession session requests ∨
      request.sessionId = session ∧ request.request.Ordinary ∧ content = request.content := by
  rw [ofSession_append] at isMember
  rcases mem_append.mp isMember with isOld | isNew
  · exact .inl isOld
  · rcases mem_map.mp isNew with ⟨other, isFiltered, rfl⟩
    rcases mem_filter.mp isFiltered with ⟨isRequest, isOwn⟩
    cases mem_singleton.mp isRequest
    rcases of_decide_eq_true isOwn with ⟨own, ordinary⟩
    exact .inr ⟨own, ordinary, rfl⟩

theorem ofSession_take_isPrefix (requests : List RequestForSession) (count : ℕ) :
    ofSession session (requests.take count) <+: ofSession session requests :=
  (( take_prefix count requests).filter _).map _

end

theorem map_content_movedOf {session : Int64} {requests : List RequestForSession}
    (ordinary : ∀ {request}, request ∈ requests → request.sessionId = session →
      request.request.Ordinary) :
    (movedOf session requests).map (·.content) = ofSession session requests := by
  rw [movedOf, ofSession]
  congr 1
  apply filter_congr
  intro request isMember
  by_cases isOwn : request.sessionId = session
  · have isOrdinary := ordinary isMember isOwn
    simp [isOwn, isOrdinary, isOrdinary.2]
  · simp [isOwn]

namespace ProcessorHistory

variable {parallel : ℕ} {history after : ProcessorHistory} {request : RequestForSession}

theorem next_push (moves : history.next parallel (.push request) = some after) :
    after = { history with
      processor := { history.processor with
        requestsQueue := Function.update history.processor.requestsQueue
          (getRunnerId parallel request.sessionId)
          (history.processor.requestsQueue (getRunnerId parallel request.sessionId) ++ [request]) }
      pushed := history.pushed ++ [request] } := by
  simp only [next, push] at moves
  split at moves
  · cases moves
    rfl
  · cases moves

theorem next_commit (moves : history.next parallel (.commit request) = some after) :
    after = { history with
      processor := { history.processor with
        committedQueue := history.processor.committedQueue ++ [request] }
      committed := history.committed ++ [request] } := by
  simp only [next, commit] at moves
  split at moves
  · cases moves
    rfl
  · cases moves

theorem next_onError {error : ErrorRequest}
    (moves : history.next parallel (.onError error) = some after) :
    history.processor.holdsMutex = false ∧
      after = { history with
        processor := { history.processor with
          errorRequests := history.processor.errorRequests ++ [error]
          errorRequestIds := insert error.getRequestId history.processor.errorRequestIds }
        reported := history.reported ++ [error] } := by
  simp only [next, onError] at moves
  split at moves
  · cases moves
  next isFree =>
    cases moves
    exact ⟨by simpa using isFree, rfl⟩

theorem next_run {surroundings : Surroundings}
    (moves : history.next parallel (.run surroundings) = some after) :
    ∃ processor handed, history.processor.Transition parallel surroundings processor handed ∧
      after = { history with processor := processor }.hand handed := by
  rcases Option.map_eq_some_iff.mp moves with ⟨⟨processor, handed⟩, steps, rfl⟩
  exact ⟨processor, handed, .of_step steps, rfl⟩

end ProcessorHistory

end RaftKeeper
