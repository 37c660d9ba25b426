import RaftKeeper.Store.NoPoison
import RaftKeeper.Store.Replicated

/-!
# Local reads

A server answers reads on its own, so they must not change what is replicated. A MultiRead may hold
writes, and both GetACL and MultiRead take a zxid; every other read is invisible to the replicated
state.
-/

namespace RaftKeeper

open List Option

set_option maxRecDepth 10000

/-- Whether a request may be executed as part of a Multi and changes the state. -/
def SingleRequest.changes : SingleRequest → Bool
  | create _ | remove _ | set _ => true
  | _ => false

def Request.onlyReads : Request → Bool
  | single _ => true
  | multi _ requests => requests.all fun
      | single request => !request.changes
      | multi .. => true

variable {platform : Platform} {state after : StoreState} {zxid session time : Int64}
  {request : SingleRequest} {response : Response} {undo : Undo}

theorem StoreState.process_unchanged (legal : request.multiType.isSome)
    (unchanging : request.changes = false)
    (processed : state.process platform zxid session time request =
      .returned (after, response, undo)) : after = state ∧ undo = .nothing := by
  cases request with
  | create | remove | set => cases unchanging
  | check request =>
    cases processed
    exact ⟨rfl, rfl⟩
  | get | «exists» | list => exact process_read rfl processed
  | _ => simp [SingleRequest.multiType] at legal

theorem StoreRequestMultiTxn.Loops.unchanged {operationType : OperationType}
    {requests : List SingleRequest} {responses : List Response} {undoActions : List Undo}
    {rolledBack : Bool} {result : Result StoreState (StoreState × List Response)}
    (loops : Loops platform zxid session time operationType requests state responses undoActions
      rolledBack result)
    (legal : ∀ request ∈ requests, request.multiType.isSome)
    (unchanging : ∀ request ∈ requests, request.changes = false)
    (nothingUndone : ∀ undo ∈ undoActions, undo = .nothing) (ends : result.final = some after) :
    after = state := by
  have undone : ∀ {undos : List Undo} {state undone : StoreState},
      (∀ undo ∈ undos, undo = .nothing) → Undo.runAll undos state = some undone →
        undone = state := by
    intro undos state undone nothing runs
    induction undos with
    | nil =>
      cases runs
      rfl
    | cons undo rest ih =>
      rw [nothing undo mem_cons_self] at runs
      exact ih (fun other isMember => nothing other (mem_cons_of_mem _ isMember)) runs
  induction loops with
  | done =>
    cases ends
    rfl
  | throws _ undoes =>
    cases ends
    exact undone nothingUndone undoes
  | fails processed _ undoes =>
    cases ends
    rcases StoreState.process_unchanged (legal _ mem_cons_self)
      (unchanging _ mem_cons_self) processed with ⟨rfl, _⟩
    exact undone nothingUndone undoes
  | step processed _ _ _ ih =>
    rcases StoreState.process_unchanged (legal _ mem_cons_self)
      (unchanging _ mem_cons_self) processed with ⟨rfl, rfl⟩
    exact ih (fun other isMember => legal other (mem_cons_of_mem _ isMember))
      (fun other isMember => unchanging other (mem_cons_of_mem _ isMember))
      (forall_mem_cons.mpr ⟨rfl, nothingUndone⟩) ends

theorem StoreState.process_isReadRequest (isRead : request.isReadRequest = true)
    (processed : state.process platform zxid session time request =
      .returned (after, response, undo)) : after = state := by
  cases request with
  | heartbeat | setWatches | «exists» | get =>
    cases processed
    rfl
  | list | getACL => exact (StoreState.keeping_eq_returned processed).1
  | _ => cases isRead

namespace Replicated

variable {platform : Platform} {replica after : Replicated} {entry : LogEntry}
  {reply : Option Reply} (isRead : entry.request.isReadRequest = true)

include isRead

theorem process_read (onlyReads : entry.request.onlyReads = true) {storeRequest : StoreRequest}
    (made : StoreRequest.make entry.request = .ok storeRequest) {state after : StoreState}
    {zxid session time : Int64} {type : OperationType}
    (ends : (storeRequest.process platform state zxid session time type).final = some after) :
    after = state := by
  rcases KeeperStore.make_cases made with
    ⟨request, isSingle, rfl⟩ | ⟨type, requests, txn, isMulti, rfl, builds⟩
  · rcases StoreRequest.process_single_final ends with ⟨same, _⟩ | ⟨response, undo, processed⟩
    · exact same
    · rw [isSingle] at isRead
      exact StoreState.process_isReadRequest isRead processed
  · have unchanging : ∀ request ∈ txn.concreteRequests, request.changes = false := by
      intro request isMember
      rw [isMulti] at onlyReads
      simpa using all_eq_true.mp onlyReads _
        (StoreRequestMultiTxn.make_members builds isMember)
    rw [StoreRequest.process_multi_final] at ends
    exact (StoreRequestMultiTxn.loops_of_final ends).unchanged (KeeperStore.multi_legal made)
      unchanging nofun ends

theorem respond_read (onlyReads : entry.request.onlyReads = true) {state : StoreState}
    (ends : (replica.respond platform entry).final = some state) :
    state = replica.toStoreState := by
  rcases respond_final ends with same | ⟨storeRequest, made, ends⟩
  · exact same
  · exact process_read isRead onlyReads made ends

theorem apply_of_isReadRequest :
    replica.apply platform entry =
      if replica.contains entry.sessionId then replica.applyRequest platform entry
      else some (replica, none) := by
  unfold apply
  cases isRequest : entry.request with
  | multi => rfl
  | single request =>
    rw [isRequest] at isRead
    cases request with
    | close | newSession | updateSession => cases isRead
    | _ => rfl

theorem apply_read (onlyReads : entry.request.onlyReads = true)
    (applied : replica.apply platform entry = some (after, reply)) :
    after = replica ∨ (entry.request.shouldIncreaseZxid = true ∧
      replica.contains entry.sessionId = true ∧ after =
        { replica with zxid := replica.zxid + 1 }) := by
  rw [apply_of_isReadRequest isRead] at applied
  cases alive : replica.contains entry.sessionId with
  | false =>
    simp only [alive, Bool.false_eq_true, if_false, some.injEq, Prod.mk.injEq] at applied
    exact .inl applied.1.symm
  | true =>
    simp only [alive, if_true, applyRequest] at applied
    cases responds : replica.respond platform entry with
    | crashed | blocked => simp [responds] at applied
    | thrown exception state =>
      have same := @respond_read _ _ _ isRead onlyReads state (by rw [responds]; rfl)
      simp only [responds, same, some.injEq, Prod.mk.injEq] at applied
      exact .inl applied.1.symm
    | returned value =>
      rcases value with ⟨state, response⟩
      have same := @respond_read _ _ _ isRead onlyReads state (by rw [responds]; rfl)
      simp only [responds, same, some.injEq, Prod.mk.injEq] at applied
      by_cases increases : entry.request.shouldIncreaseZxid = true
      · simp only [increases, if_true] at applied
        exact .inr ⟨increases, rfl, applied.1.symm⟩
      · simp only [increases, Bool.false_eq_true, if_false] at applied
        exact .inl applied.1.symm

end Replicated

namespace KeeperStore

variable {platform : Platform} {store after : KeeperStore} {call : Call}

/-- A read of a session that is alive takes no zxid. -/
def keepsZxid (store : KeeperStore) (call : Call) : Prop :=
  call.request.request.isReadRequest = true → call.request.request.shouldIncreaseZxid = true →
    store.sessionManager.contains call.request.sessionId = false

instance : Decidable (store.keepsZxid call) :=
  inferInstanceAs (Decidable (_ → _ → _))

theorem read_replicated (served : call.Served)
    (isRead : call.request.request.isReadRequest = true) (keeps : store.keepsZxid call)
    (moves : store.next platform call = some after) : after.replicated = store.replicated := by
  rcases processRequest_refines served after moves with ⟨reply, applied, _⟩
  cases alive : store.sessionManager.contains call.request.sessionId with
  | false =>
    have dead : store.replicated.contains call.entry.sessionId = false := alive
    have isReadEntry : call.entry.request.isReadRequest = true := isRead
    simp only [Replicated.apply_of_isReadRequest isReadEntry, dead, Bool.false_eq_true, if_false,
      some.injEq, Prod.mk.injEq] at applied
    exact applied.1.symm
  | true =>
    have increasesNot : call.request.request.shouldIncreaseZxid = false := by
      by_contra increases
      have dead := keeps isRead (by simpa using increases)
      rw [alive] at dead
      cases dead
    have onlyReads : call.request.request.onlyReads = true := by
      cases isRequest : call.request.request with
      | single => rfl
      | multi => simp [isRequest, Request.shouldIncreaseZxid] at increasesNot
    rcases Replicated.apply_read isRead onlyReads applied with same | ⟨increases, _⟩
    · exact same
    · exact absurd (increasesNot.symm.trans increases) (by simp)

theorem read_replicated_zxid (served : call.Served)
    (isRead : call.request.request.isReadRequest = true)
    (onlyReads : call.request.request.onlyReads = true)
    (moves : store.next platform call = some after) :
    after.replicated = { store.replicated with zxid := after.zxid } := by
  rcases processRequest_refines served after moves with ⟨reply, applied, _⟩
  rcases Replicated.apply_read isRead onlyReads applied with same | ⟨_, _, same⟩
  · have sameZxid : after.zxid = store.zxid := congrArg Replicated.zxid same
    rw [same, sameZxid]
    rfl
  · have sameZxid : after.zxid = store.zxid + 1 := congrArg Replicated.zxid same
    rw [same, sameZxid]
    rfl

/-- The log entry of a call; none for a read. -/
def committed (call : Call) : Option LogEntry :=
  if call.request.request.isReadRequest then none else some call.entry

theorem isReadRequest_of_committed (isLocal : committed call = none) :
    call.request.request.isReadRequest = true := by
  by_contra notRead
  simp [committed, notRead] at isLocal

theorem entry_of_committed {entry : LogEntry} (isCommitted : committed call = some entry) :
    call.request.request.isReadRequest = false ∧ call.entry = entry := by
  cases isRead : call.request.request.isReadRequest with
  | true => simp [committed, isRead] at isCommitted
  | false => simpa [committed, isRead] using isCommitted

def quiet (store : KeeperStore) (call : Call) : Prop :=
  call.Served ∧ store.keepsZxid call

instance : Decidable (store.quiet call) :=
  inferInstanceAs (Decidable (_ ∧ _))

theorem next_simulates {start last : KeeperStore} {calls : List Call}
    (meets : runMeets (next platform) quiet start calls)
    (runs : runFrom (next platform) start calls = some last) :
    runFrom (fun replica entry => (Replicated.apply platform replica entry).map Prod.fst)
      start.replicated (calls.filterMap committed) = some last.replicated := by
  refine runFrom_simulates replicated committed ?_ ?_ meets runs
  · intro before after call ⟨served, keeps⟩ isLocal moves
    exact read_replicated served (isReadRequest_of_committed isLocal) keeps moves
  · intro before after call entry ⟨served, _⟩ isCommitted moves
    rcases processRequest_refines served after moves with ⟨reply, applied, _⟩
    rw [← (entry_of_committed isCommitted).2, applied]
    rfl

/--
Reads that keep the zxid leave the replicated state as it is, and those that take one
leave everything else. Servers that apply the same log agree, whatever they read.
-/
theorem localReads_invisible (platform : Platform) :
    (∀ (store after : KeeperStore) (call : Call), call.Served →
      call.request.request.isReadRequest = true → store.next platform call = some after →
      (store.keepsZxid call → after.replicated = store.replicated) ∧
      (call.request.request.onlyReads = true →
        after.replicated = { store.replicated with zxid := after.zxid })) ∧
    ∀ (start left right : KeeperStore) (leftCalls rightCalls : List Call),
      runMeets (next platform) quiet start leftCalls →
      runFrom (next platform) start leftCalls = some left →
      runMeets (next platform) quiet start rightCalls →
      runFrom (next platform) start rightCalls = some right →
      leftCalls.filterMap committed = rightCalls.filterMap committed →
      left.replicated = right.replicated := by
  constructor
  · intro store after call served isRead moves
    exact ⟨fun keeps => read_replicated served isRead keeps moves,
      fun onlyReads => read_replicated_zxid served isRead onlyReads moves⟩
  · intro start left right leftCalls rightCalls leftMeets leftRuns rightMeets rightRuns sameLog
    have leftSpec := next_simulates leftMeets leftRuns
    have rightSpec := next_simulates rightMeets rightRuns
    rw [sameLog, rightSpec] at leftSpec
    exact (some.inj leftSpec).symm

def creatingFrame : Bytes :=
  [0, 0, 0, 1, 0, 0, 0, 22] ++
  [0, 0, 0, 1, 0, 255, 255, 255, 255] ++ [0, 0, 0, 2, 47, 120] ++ [255, 255, 255, 255] ++
  [0, 0, 0, 0] ++ [0, 0, 0, 0] ++
  [255, 255, 255, 255, 1, 255, 255, 255, 255]

def creatingRead : Request := .multi .read [.single (.create { path := ascii "/x" })]

/-- The decoder accepts a read that creates a node. -/
theorem creatingRead_creates :
    receiveRequest creatingFrame = .ok (1, creatingRead) ∧ creatingRead.isReadRequest = true ∧
    ∃ store after, ReachableBy (next .sample) (fun _ _ => True) sample store ∧
      store.next .sample (.sample 1 creatingRead) = some after ∧
      ascii "/x" ∉ store.dataTree ∧ ascii "/x" ∈ after.dataTree := by
  simp only [exists_and_left]
  exact ⟨rfl, rfl, exists_reached [.sampleSession] (by decide)⟩

def createWithReads : List Call :=
  [.sampleSession, .sample 1 (.single (.get (ascii "/") true)),
    .sample 1 (.single (.create { path := ascii "/x" })),
    .sample 1 (.single (.list .full (ascii "/") true)), .sample 2 (.single (.getACL (ascii "/x")))]

def createWithoutReads : List Call :=
  [.sampleSession, .sample 1 (.single (.create { path := ascii "/x" }))]

theorem localReads_invisible_createWithReads :
    ∃ left right : KeeperStore, runFrom (next .sample) sample createWithReads = some left ∧
      runFrom (next .sample) sample createWithoutReads = some right ∧
      left.replicated = right.replicated := by
  have leftRuns : (runFrom (next .sample) sample createWithReads).isSome := by decide
  have rightRuns : (runFrom (next .sample) sample createWithoutReads).isSome := by decide
  rcases isSome_iff_exists.mp leftRuns with ⟨left, leftRuns⟩
  rcases isSome_iff_exists.mp rightRuns with ⟨right, rightRuns⟩
  exact ⟨left, right, leftRuns, rightRuns, (localReads_invisible .sample).2 sample left right _ _
    (by decide) leftRuns (by decide) rightRuns rfl⟩

/-- A step together with the replies to the committed requests so far. -/
def observe (platform : Platform) (observed : KeeperStore × List (Option Reply)) (call : Call) :
    Option (KeeperStore × List (Option Reply)) :=
  (observed.1.next platform call).map fun after =>
    (after, if call.request.request.isReadRequest then observed.2
      else observed.2 ++ [(observed.1.processRequest platform call).reply])

end KeeperStore

/-- A log entry is applied, and its reply recorded. -/
def Replicated.observe (platform : Platform) (observed : Replicated × List (Option Reply))
    (entry : LogEntry) : Option (Replicated × List (Option Reply)) :=
  (observed.1.apply platform entry).map fun (after, reply) => (after, observed.2 ++ [reply])

namespace KeeperStore

/-- The call is quiet, and its reply is sent. -/
def answersQuietly (observed : KeeperStore × List (Option Reply)) (call : Call) : Prop :=
  observed.1.quiet call ∧ call.ignoreResponse = false

instance {observed : KeeperStore × List (Option Reply)} :
    Decidable (answersQuietly observed call) :=
  inferInstanceAs (Decidable (_ ∧ _))

theorem observe_simulates {start last : KeeperStore × List (Option Reply)} {calls : List Call}
    (meets : runMeets (observe platform) answersQuietly start calls)
    (runs : runFrom (observe platform) start calls = some last) :
    runFrom (Replicated.observe platform) (start.1.replicated, start.2)
      (calls.filterMap committed) = some (last.1.replicated, last.2) := by
  refine runFrom_simulates (fun observed => (observed.1.replicated, observed.2)) committed ?_ ?_
    meets runs
  · intro before after call ⟨⟨served, keeps⟩, _⟩ isLocal observed
    have isRead := isReadRequest_of_committed isLocal
    rcases map_eq_some_iff.mp observed with ⟨store, moves, rfl⟩
    simp only [isRead, if_true]
    rw [read_replicated served isRead keeps moves]
  · intro before after call entry ⟨⟨served, _⟩, answersSent⟩ isCommitted observed
    rcases entry_of_committed isCommitted with ⟨notRead, isEntry⟩
    rcases map_eq_some_iff.mp observed with ⟨store, moves, rfl⟩
    rcases processRequest_refines served store moves with ⟨reply, applied, replied⟩
    simp only [Replicated.observe, ← isEntry, applied, notRead, Bool.false_eq_true, if_false,
      map_some, replied answersSent]

/--
Two servers that start alike and apply the same log have the same zxid, give the same
replies with the same zxids and stamp the same zxids on their nodes, provided that their
reads keep the zxid.
-/
theorem zxid_determined_by_log {leftStart rightStart : KeeperStore}
    (alike : leftStart.replicated = rightStart.replicated) {leftCalls rightCalls : List Call}
    {left right : KeeperStore × List (Option Reply)}
    (leftMeets : runMeets (observe platform) answersQuietly (leftStart, []) leftCalls)
    (leftRuns : runFrom (observe platform) (leftStart, []) leftCalls = some left)
    (rightMeets : runMeets (observe platform) answersQuietly (rightStart, []) rightCalls)
    (rightRuns : runFrom (observe platform) (rightStart, []) rightCalls = some right)
    (sameLog : leftCalls.filterMap committed = rightCalls.filterMap committed) :
    left.1.zxid = right.1.zxid ∧ left.2 = right.2 ∧ left.1.dataTree = right.1.dataTree := by
  have leftSpec := observe_simulates leftMeets leftRuns
  have rightSpec := observe_simulates rightMeets rightRuns
  simp only [sameLog, alike, rightSpec, some.injEq, Prod.mk.injEq] at leftSpec
  rcases leftSpec with ⟨same, sameReplies⟩
  refine ⟨(congrArg Replicated.zxid same).symm, sameReplies.symm, ?_⟩
  exact (congrArg (fun replica : Replicated => replica.dataTree) same).symm

def getACLFrame : Bytes := [0, 0, 0, 1, 0, 0, 0, 6] ++ [0, 0, 0, 1, 47]

def getACLRead : Request := .single (.getACL (ascii "/"))

def createAfterGetACL : List Call :=
  [.sampleSession, .sample 1 getACLRead, .sample 1 (.single (.create { path := ascii "/x" }))]

/-- A GetACL on one of two servers makes their zxids and the stamps of their nodes differ. -/
theorem getACLRead_takes_zxid :
    receiveRequest getACLFrame = .ok (1, getACLRead) ∧ getACLRead.isReadRequest = true ∧
    createAfterGetACL.filterMap committed = createWithoutReads.filterMap committed ∧
    ∃ (left right : KeeperStore) (leftNode rightNode : KeeperNode),
      runFrom (next .sample) sample createAfterGetACL = some left ∧
      runFrom (next .sample) sample createWithoutReads = some right ∧
      left.zxid ≠ right.zxid ∧
      left.dataTree.lookup (ascii "/x") = some leftNode ∧
      right.dataTree.lookup (ascii "/x") = some rightNode ∧
      leftNode.stat.czxid ≠ rightNode.stat.czxid := by
  refine ⟨rfl, rfl, rfl, ?_⟩
  have runs : ∃ left, runFrom (next .sample) sample createAfterGetACL = some left ∧
      ∃ right, runFrom (next .sample) sample createWithoutReads = some right ∧
        left.zxid ≠ right.zxid ∧ ∃ leftNode, left.dataTree.lookup (ascii "/x") = some leftNode ∧
          ∃ rightNode, right.dataTree.lookup (ascii "/x") = some rightNode ∧
            leftNode.stat.czxid ≠ rightNode.stat.czxid := by decide
  rcases runs with ⟨left, leftRuns, right, rightRuns, zxids, leftNode, leftFound, rightNode,
    rightFound, stamps⟩
  exact ⟨left, right, leftNode, rightNode, leftRuns, rightRuns, zxids, leftFound, rightFound,
    stamps⟩

theorem zxid_determined_by_log_createWithReads :
    ∃ left right : KeeperStore × List (Option Reply),
      runFrom (observe .sample) (sample, []) createWithReads = some left ∧
      runFrom (observe .sample) (sample, []) createWithoutReads = some right ∧
      left.1.zxid = right.1.zxid ∧ left.2 = right.2 ∧ left.1.dataTree = right.1.dataTree := by
  have leftRuns : (runFrom (observe .sample) (sample, []) createWithReads).isSome := by decide
  have rightRuns : (runFrom (observe .sample) (sample, []) createWithoutReads).isSome := by decide
  rcases isSome_iff_exists.mp leftRuns with ⟨left, leftRuns⟩
  rcases isSome_iff_exists.mp rightRuns with ⟨right, rightRuns⟩
  exact ⟨left, right, leftRuns, rightRuns,
    zxid_determined_by_log rfl (by decide) leftRuns (by decide) rightRuns rfl⟩

end KeeperStore

end RaftKeeper
