import RaftKeeper.Store.Atomicity
import RaftKeeper.ZooKeeper.Codec

/-!
# No poison requests

`RequestProcessor` aborts the process when a committed request throws, again and again with each
replay. Two kinds of Multi are fatal in any state: one whose sub-requests may not stand together,
and one with a filtered List of the root. Every other request that is not a read returns.
-/

namespace RaftKeeper

open List StoreRequestMultiTxn

set_option maxRecDepth 10000

/-- Whether a request is a filtered List of the root, in a state where it has children. -/
def SingleRequest.filtersRoot (state : StoreState) : SingleRequest → Bool
  | list (.filtered listRequestType) path _ =>
    path = rootPath && (listRequestType ≠ 0 &&
      (state.dataTree.lookup rootPath).any fun root => root.children ≠ ∅)
  | _ => false

variable {state : StoreState}

theorem StoreState.list_returns (wf : TreeWellFormed state.dataTree) {kind : ListKind}
    {path : Bytes} {hasWatch : Bool}
    (safe : (SingleRequest.list kind path hasWatch).filtersRoot state = false) :
    ∃ response, state.list kind path = .returned response := by
  unfold list
  cases found : state.dataTree.lookup path with
  | none => exact ⟨_, rfl⟩
  | some node =>
    simp only [if_neg (wf.ne_nil found)]
    cases kind with
    | simple | full => exact ⟨_, rfl⟩
    | filtered listRequestType =>
      by_cases isAll : listRequestType = 0
      · simp only [if_pos isAll]
        exact ⟨_, rfl⟩
      · have children : ∀ child ∈ node.children,
            (state.dataTree.lookup (listedChildPath path child)).isSome := by
          intro child listed
          by_cases isRoot : path = rootPath
          · -- the root has no children here, since it is not filtered otherwise
            subst isRoot
            simp only [SingleRequest.filtersRoot, decide_true, Bool.true_and, found,
              Option.any_some, Bool.and_eq_false_iff, decide_eq_false_iff_not, not_not] at safe
            rcases safe with isZero | childless
            · exact absurd isZero isAll
            · simp [childless] at listed
          · rcases wf.child found listed with ⟨_, _, foundChild⟩ | ⟨isRoot', _⟩
            · rwa [childPath_of_ne isRoot] at foundChild
            · exact absurd isRoot' isRoot
        simp only [if_neg isAll, if_pos children]
        exact ⟨_, rfl⟩

variable {request : SingleRequest}

theorem StoreState.process_read_returns (wf : TreeWellFormed state.dataTree)
    (isRead : request.multiType = some .read) (safe : request.filtersRoot state = false)
    (platform : Platform) (zxid session time : Int64) :
    ∃ response,
      state.process platform zxid session time request = .returned (state, response, .nothing) := by
  cases request with
  | get path hasWatch | «exists» path hasWatch => exact ⟨_, rfl⟩
  | list kind path hasWatch =>
    rcases list_returns wf safe with ⟨response, listed⟩
    refine ⟨response, ?_⟩
    simp only [process, listed, Result.keeping]
  | _ => simp [SingleRequest.multiType] at isRead

namespace StoreRequestMultiTxn

variable {platform : Platform} {zxid session time : Int64}

theorem loop_read_returns {operationType : OperationType} (isRead : operationType ≠ .write)
    {requests : List SingleRequest} {state : StoreState} (responses : List Response)
    (undoActions : List Undo) (wf : TreeWellFormed state.dataTree)
    (reads : ∀ request ∈ requests, request.multiType = some .read)
    (safe : ∀ request ∈ requests, request.filtersRoot state = false) :
    ∃ answers, loop platform zxid session time operationType requests state responses undoActions =
      .returned (state, answers) := by
  induction requests generalizing responses undoActions with
  | nil => exact ⟨_, rfl⟩
  | cons request rest ih =>
    rcases StoreState.process_read_returns wf (reads request mem_cons_self)
      (safe request mem_cons_self) platform zxid session time with ⟨response, processed⟩
    simp only [loop, processed, isRead, and_false, if_false]
    apply ih
    · exact fun other isMember => reads other (mem_cons_of_mem _ isMember)
    · exact fun other isMember => safe other (mem_cons_of_mem _ isMember)

end StoreRequestMultiTxn

/-- Whether a request may be part of a Multi of this type. -/
def Request.isPartOf (type : OperationType) : Request → Bool
  | single request => request.multiType = some type
  | multi .. => false

/-- Whether a list of requests may stand together in one Multi. -/
def uniformRequests (requests : List Request) : Bool :=
  requests.all (Request.isPartOf .write) || requests.all (Request.isPartOf .read)

namespace StoreRequestMultiTxn

theorem make_of_isPartOf {type : OperationType} {requests : List Request}
    (parts : ∀ request ∈ requests, request.isPartOf type = true) {start : StoreRequestMultiTxn}
    (startType : start.operationType = .unspecified ∨ start.operationType = type) :
    ∃ txn, make requests start = .ok txn := by
  induction requests generalizing start with
  | nil => exact ⟨start, rfl⟩
  | cons request rest ih =>
    have isPart := parts request mem_cons_self
    cases request with
    | multi => simp [Request.isPartOf] at isPart
    | single concrete =>
      have hasType : concrete.multiType = some type := of_decide_eq_true isPart
      have notMixed : ¬ (start.operationType ≠ .unspecified ∧ start.operationType ≠ type) := by
        rintro ⟨specified, other⟩
        exact startType.elim specified other
      rcases @ih (fun other isMember => parts other (mem_cons_of_mem _ isMember))
        { operationType := type, concreteRequests := start.concreteRequests ++ [concrete] }
        (.inr rfl) with ⟨txn, made⟩
      exact ⟨txn, by simp only [make, add, hasType, if_neg notMixed, made]⟩

end StoreRequestMultiTxn

theorem StoreState.process_single_returns (wf : TreeWellFormed state.dataTree)
    (notRead : request.isReadRequest = false) (notClose : request ≠ .close)
    {storeRequest : StoreRequest} (made : StoreRequest.make (.single request) = .ok storeRequest)
    (platform : Platform) (zxid session time : Int64) (type : OperationType) :
    ∃ value, storeRequest.process platform state zxid session time type = .returned value := by
  cases request with
  | remove request =>
    cases made
    rcases remove_returns wf zxid request with ⟨⟨after, response, undo⟩, returns⟩
    exact ⟨(after, response), by simp only [StoreRequest.process, process, returns]⟩
  | sync | auth | create | set | check | setACL =>
    cases made
    exact ⟨_, rfl⟩
  | close => exact absurd rfl notClose
  | newSession | updateSession => cases made
  | heartbeat | setWatches | «exists» | get | list | getACL => cases notRead

namespace KeeperStore

variable {platform : Platform} {start store : KeeperStore} {call : Call}

theorem respond_single_returns (sound : StoreSound store.toStoreState) {request : SingleRequest}
    (isSingle : call.request.request = .single request) (notRead : request.isReadRequest = false)
    (notClose : request ≠ .close) {storeRequest : StoreRequest}
    (made : StoreRequest.make (.single request) = .ok storeRequest) :
    ∃ value, store.respond platform call = .returned value := by
  have isStoreRequest : storeRequest = .single request := by
    cases request <;> cases made <;> rfl
  rcases sound.acls.toAclCounted.checkAuth call.request.sessionId request with ⟨passed, checked⟩
  have processed := StoreState.process_single_returns sound.tree.wellFormed notRead notClose made
    platform store.zxid call.request.sessionId call.request.processTime
    call.request.request.operationType
  simp only [isStoreRequest] at made processed
  simp only [respond, isSingle, made, StoreRequest.checkAuth, checked]
  simp only [isSingle] at processed
  cases call.checkAcl with
  | false => exact processed
  | true =>
    cases passed with
    | false => exact ⟨_, rfl⟩
    | true => exact processed

theorem processStoreRequest_returns
    (responds : ∃ value, store.respond platform call = .returned value) :
    ∃ answered, store.processStoreRequest platform call = .returned answered := by
  rcases responds with ⟨⟨state, response⟩, responds⟩
  simp only [processStoreRequest, responds]
  exact ⟨_, rfl⟩

theorem dispatch_single_returns (sound : StoreSound store.toStoreState)
    (indexed : store.sessionManager.sessionExpiryQueue.Indexed) {request : SingleRequest}
    (isSingle : call.request.request = .single request) (notRead : request.isReadRequest = false) :
    ∃ answered, store.dispatch platform call = .returned answered := by
  have ordinary : ∀ {storeRequest}, request ≠ .close →
      StoreRequest.make (.single request) = .ok storeRequest →
      (∃ answered, (if !store.sessionManager.contains call.request.sessionId &&
        call.newLastZxid.isNone then .returned (store, [])
        else store.processSessionRequest platform call) = .returned answered) := by
    intro storeRequest notClose made
    split
    · exact ⟨_, rfl⟩
    · rcases SessionManager.updateSessionExpirationTime_spec indexed call.env.now
        call.request.sessionId with ⟨queue, _, updated⟩
      have returns := fun sessionManager => processStoreRequest_returns
        (@respond_single_returns platform { store with sessionManager := sessionManager } call sound
          request isSingle notRead notClose storeRequest made)
      simp only [processSessionRequest, updated, isSingle]
      cases request with
      | heartbeat | setWatches => cases notRead
      | _ => exact returns _
  unfold dispatch
  simp only [isSingle]
  cases request with
  | close =>
    rcases SessionManager.expireSession_spec indexed call.request.sessionId with ⟨queue, _, expired⟩
    simp only [closeSession, cleanEphemeralNodes_sessionManager, expired]
    exact ⟨_, rfl⟩
  | newSession request =>
    rcases SessionManager.getSessionID_spec indexed call.env.now
      request.sessionTimeoutMs.toInt64 with ⟨queue, _, opened⟩
    simp only [newSession, opened]
    exact ⟨_, rfl⟩
  | updateSession request =>
    rcases SessionManager.updateSessionTimeout_spec indexed call.env.now
      call.request.sessionId with ⟨queue, _, updated⟩
    simp only [updateSession, updated]
    exact ⟨_, rfl⟩
  | heartbeat | setWatches | «exists» | get | list | getACL => cases notRead
  | sync | auth | create | remove | set | check | setACL => exact ordinary (by simp) rfl

def filtersRoot (store : KeeperStore) : Request → Bool
  | .single request => request.filtersRoot store.toStoreState
  | .multi .. => false

/-- A Multi of sub-requests that may stand together, which neither filters the root nor
makes an alias. -/
def harmless (platform : Platform) (store : KeeperStore) (call : Call) : Prop :=
  match call.request.request with
  | .single _ => True
  | .multi _ requests =>
    uniformRequests requests = true ∧ (∀ request ∈ requests, store.filtersRoot request = false) ∧
      store.createsNoAlias platform call

instance : Decidable (store.harmless platform call) := by
  unfold harmless
  cases call.request.request <;> exact inferInstance

theorem processRequest_multi_returns (sound : StoreSound store.toStoreState)
    (indexed : store.sessionManager.sessionExpiryQueue.Indexed) {type : OperationType}
    {requests : List Request} (isMulti : call.request.request = .multi type requests)
    (fresh : ∀ zxid, call.newLastZxid = some zxid → store.zxid < zxid)
    (meets : store.harmless platform call) :
    ∃ answered, store.processRequest platform call = .returned answered := by
  simp only [harmless, isMulti] at meets
  rcases meets with ⟨uniform, notFiltered, noAlias⟩
  have legal : ∃ txn, make requests {} = .ok txn := by
    rcases Bool.or_eq_true_iff.mp uniform with writes | reads
    · exact make_of_isPartOf (all_eq_true.mp writes) (.inl rfl)
    · exact StoreRequestMultiTxn.make_of_isPartOf (all_eq_true.mp reads) (.inl rfl)
  rcases legal with ⟨txn, made⟩
  cases executed : store.executes call with
  | none =>
    rcases processRequest_refused sound indexed isMulti made fresh executed with
      ⟨after, answers, returns, _⟩
    exact ⟨(after, answers), returns⟩
  | some storeRequest =>
    have isTxn : storeRequest = .multi txn := by
      have sameMade := make_of_executes executed
      simp only [isMulti, StoreRequest.make, made, Except.map, Except.ok.injEq] at sameMade
      exact sameMade.symm
    subst isTxn
    have multiTypes := StoreRequestMultiTxn.make_uniform made
    have looped : ∃ after answers, StoreRequestMultiTxn.loop platform
        (call.newLastZxid.getD store.zxid) call.request.sessionId call.request.processTime
        txn.operationType txn.concreteRequests store.toStoreState [] [] =
          .returned (after, answers) := by
      by_cases isWrite : txn.operationType = .write
      · have noAliases := noAlias.trace
        simp only [trace, executed, StoreRequest.trace] at noAliases
        rw [isWrite] at multiTypes noAliases ⊢
        exact StoreRequestMultiTxn.loop_returns [] [] sound.tree multiTypes noAliases
          fun later _ => ⟨later, rfl⟩
      · have reads : ∀ request ∈ txn.concreteRequests, request.multiType = some .read := by
          intro request isMember
          have hasType := multiTypes request isMember
          cases request <;> simp_all [SingleRequest.multiType]
        have safe : ∀ request ∈ txn.concreteRequests,
            request.filtersRoot store.toStoreState = false := by
          intro request isMember
          exact notFiltered _ (make_members made isMember)
        rcases loop_read_returns isWrite [] [] sound.tree.wellFormed reads
          safe with ⟨answers, looped⟩
        exact ⟨_, answers, looped⟩
    rcases looped with ⟨state, responses, looped⟩
    rcases processRequest_multi indexed executed looped with ⟨queue, zxid, answers, returns⟩
    exact ⟨_, returns⟩

theorem processRequest_single_returns (sound : StoreSound store.toStoreState)
    (indexed : store.sessionManager.sessionExpiryQueue.Indexed) {request : SingleRequest}
    (isSingle : call.request.request = .single request) (notRead : request.isReadRequest = false)
    (fresh : ∀ zxid, call.newLastZxid = some zxid → store.zxid < zxid) :
    ∃ answered, store.processRequest platform call = .returned answered := by
  unfold processRequest
  cases newZxid : call.newLastZxid with
  | none => exact dispatch_single_returns sound indexed isSingle notRead
  | some zxid =>
    have increasing := fresh zxid newZxid
    simp only [ge_iff_le, Int64.not_le.mpr increasing, if_false]
    exact @dispatch_single_returns platform { store with zxid := zxid } call sound indexed request
      isSingle notRead

/--
In every state reached by calls that keep the access control lists, a request that is not
a read returns, unless it is a Multi that mixes its sub-requests, filters the root or makes
an alias.
-/
theorem write_returns (started : Started platform start)
    (reached : ReachableBy (next platform) (keepsAcls platform) start store)
    (notRead : call.request.request.isReadRequest = false)
    (fresh : ∀ zxid, call.newLastZxid = some zxid → store.zxid < zxid)
    (meets : store.harmless platform call) :
    ∃ after answers, store.processRequest platform call = .returned (after, answers) := by
  have sound := reachable_storeSound started reached
  have indexed := reachable_indexed started reached
  have returns : ∃ answered, store.processRequest platform call = .returned answered := by
    cases isRequest : call.request.request with
    | single request =>
      rw [isRequest] at notRead
      exact processRequest_single_returns sound indexed isRequest notRead fresh
    | multi type requests => exact processRequest_multi_returns sound indexed isRequest fresh meets
  rcases returns with ⟨⟨after, answers⟩, returns⟩
  exact ⟨after, answers, returns⟩

def mixedFrame : Bytes :=
  [0, 0, 0, 1, 0, 0, 0, 14] ++
  [0, 0, 0, 2, 0, 255, 255, 255, 255] ++ [0, 0, 0, 2, 47, 120] ++ [255, 255, 255, 255] ++
  [0, 0, 0, 3, 0, 255, 255, 255, 255] ++ [0, 0, 0, 2, 47, 120] ++ [0] ++
  [255, 255, 255, 255, 1, 255, 255, 255, 255]

def mixedMulti : Request :=
  .multi .write [.single (.remove { path := ascii "/x" }), .single (.exists (ascii "/x") false)]

/-- The decoder accepts a Multi that makes `processRequest` throw. -/
theorem mixedMulti_throws :
    receiveRequest mixedFrame = .ok (1, mixedMulti) ∧ mixedMulti.isReadRequest = false ∧
    ∃ store, ReachableBy (next .sample) (fun _ _ => True) sample store ∧
      (store.processRequest .sample (.sample 1 mixedMulti)).exception = some .illegalMixing := by
  exact ⟨rfl, rfl, exists_reached [.sampleSession] (by decide)⟩

def writeMulti : Call :=
  .sample 1 (.multi .write [.single (.check { path := ascii "/x" }),
    .single (.create { path := ascii "/x/y", isEphemeral := true, isSequential := true }),
    .single (.set { path := ascii "/x", data := ascii "data" }),
    .single (.remove { path := ascii "/w" })])

theorem write_returns_writeMulti :
    ∃ store after answers, ReachableBy (next .sample) (keepsAcls .sample) sample store ∧
      store.processRequest .sample writeMulti = .returned (after, answers) := by
  simp only [exists_and_left]
  refine exists_reached_of (harmless .sample · writeMulti)
    [.sampleSession, .sample 1 (.single (.create { path := ascii "/x", acls := digestAcls }))]
    (by decide) ?_
  intro store reached harmless
  have fresh : ∀ zxid, writeMulti.newLastZxid = some zxid → store.zxid < zxid := by
    intro zxid given
    cases given
  exact write_returns started_sample reached rfl fresh harmless

end KeeperStore

end RaftKeeper
