import RaftKeeper.Store.Grants

/-!
# Access checks of a Multi

The checks of all sub-requests are made before the first is executed. A later one may meet a node
that an earlier one has created, with a list that does not permit it. Where every list that a Multi
grants permits what its later sub-requests do below the new node, each of them is permitted.
-/

namespace RaftKeeper

/-- The permission that `checkAuth` of a request asks for, and the path of the node. -/
def SingleRequest.target : SingleRequest → Option (Int32 × Bytes)
  | create request => some (ACL.create, getParentPath request.path)
  | get path _ => some (ACL.read, path)
  | remove request => some (ACL.delete, getParentPath request.path)
  | set request => some (ACL.write, request.path)
  | list _ path _ => some (ACL.read, path)
  | check request => some (ACL.read, request.path)
  | setACL request => some (ACL.admin, request.path)
  | getACL path => some (ACL.admin ||| ACL.read, path)
  | heartbeat | setWatches _ | sync _ | auth .. | close | «exists» .. | newSession _
  | updateSession _ => none

/-- Whether a Create may create a node at this path; the suffix of a sequential node is
not known. -/
def CreateRequest.mayCreate (request : CreateRequest) (path : Bytes) : Bool :=
  if request.isSequential then request.path.isPrefixOf path else request.path = path

/-- The list that the earlier request gives to a node permits the later request. -/
def SingleRequest.permits (auths : AuthIDs) (earlier later : SingleRequest) : Bool :=
  match earlier, later.target with
  | create request, some (permission, path) =>
    !request.mayCreate path || (fixupACL request.acls auths).all fun acls =>
      checkACL permission (ACLMap.effective acls) auths
  | _, _ => true

section

variable {platform : Platform} {zxid session time : Int64} {state after : StoreState}
  {request : SingleRequest} {requests : List SingleRequest} {operationType : OperationType}

theorem CreateRequest.mayCreate_pathCreated (request : CreateRequest) (parent : KeeperNode) :
    request.mayCreate (request.pathCreated parent) = true := by
  rw [mayCreate, pathCreated]
  split
  · rw [List.isPrefixOf_iff_prefix]
    exact List.prefix_append _ _
  · exact decide_eq_true rfl

theorem StoreState.checkAuth_eq_target (state : StoreState) (session : Int64)
    (request : SingleRequest) :
    state.checkAuth session request = match request.target with
      | some (permission, path) => state.checkAuthAt session permission path
      | none => .ok true := by
  cases request <;> rfl

theorem AclCounted.checkAuth_iff (sound : AclCounted state) :
    state.checkAuth session request = .ok true ↔
      ∀ permission path acls, request.target = some (permission, path) →
        state.aclsAt path = some acls →
        checkACL permission acls (state.authsOf session) = true := by
  rw [state.checkAuth_eq_target]
  cases isTarget : request.target with
  | none => simp
  | some target =>
    rcases target with ⟨permission, path⟩
    dsimp only
    rw [StoreState.checkAuthAt]
    cases found : state.dataTree.lookup path with
    | none =>
      refine ⟨?_, fun _ => rfl⟩
      rintro _ _ _ acls ⟨⟩ resolves
      rw [StoreState.aclsAt, found] at resolves
      cases resolves
    | some node =>
      rcases sound.resolves found with ⟨acls, resolved⟩
      have isList : state.aclsAt path = some acls := by
        rw [StoreState.aclsAt, found, Option.bind_some, resolved]
      simp only [resolved, Except.ok.injEq]
      constructor
      · rintro passes _ _ other ⟨⟩ resolves
        rw [isList] at resolves
        cases resolves
        exact passes
      · intro permits
        exact permits permission path acls rfl isList

theorem Operation.checkAuth {change : Option Change} {later : SingleRequest}
    (operation : Operation zxid session time state request after change)
    (sound : AclCounted state) (notSetACL : ∀ own, request ≠ .setACL own)
    (sameAuths : after.authsOf session = state.authsOf session)
    (permits : request.permits (state.authsOf session) later = true)
    (permitted : state.checkAuth session later = .ok true) :
    after.checkAuth session later = .ok true := by
  rw [(operation.aclCounted sound).checkAuth_iff, sameAuths]
  intro permission path acls isTarget resolves
  have present : path ∈ after.dataTree := by
    rw [StoreState.aclsAt] at resolves
    rcases Option.bind_eq_some_iff.mp resolves with ⟨node, found, _⟩
    exact Finmap.mem_of_lookup_eq_some found
  have stays (isOld : some acls = state.aclsAt path) :
      checkACL permission acls (state.authsOf session) = true :=
    sound.checkAuth_iff.mp permitted permission path acls isTarget isOld.symm
  have grants := operation.grants sound notSetACL path present
  rw [resolves] at grants
  cases operation with
  | nothing | remove | set => exact stays grants
  | setACL isSetACL => exact absurd isSetACL (notSetACL _)
  | @create own parent isCreate nodeAcls fixed =>
    simp only [Option.bind_some, Change.grant, fixed, Option.map_some] at grants
    split at grants
    next isOwn =>
      cases grants
      have mayCreate := own.mayCreate_pathCreated parent
      rw [← isOwn] at mayCreate
      simpa [SingleRequest.permits, isCreate, isTarget, fixed, mayCreate] using permits
    next => exact stays grants

theorem StoreRequestMultiTxn.forall_checkAuth
    (permitted : checkAuth state session requests = .ok true) :
    ∀ request ∈ requests, state.checkAuth session request = .ok true := by
  induction requests with
  | nil => exact nofun
  | cons request rest ih =>
    rw [checkAuth] at permitted
    split at permitted
    next passes =>
      intro other isMember
      rcases List.mem_cons.mp isMember with rfl | isLater
      · exact passes
      · exact ih permitted other isLater
    next other notPassed =>
      exact absurd permitted notPassed

theorem AclCounted.steps_permitted (sound : AclCounted state)
    (legal : ∀ request ∈ requests, request.multiType.isSome)
    (permits : requests.Pairwise fun earlier later =>
      earlier.permits (state.authsOf session) later = true)
    (permitted : ∀ request ∈ requests, state.checkAuth session request = .ok true) :
    ∀ step ∈ StoreRequestMultiTxn.steps platform zxid session time operationType requests state,
      step.1.checkAuth session step.2 = .ok true := by
  induction requests generalizing state with
  | nil => exact nofun
  | cons request rest ih =>
    rw [List.forall_mem_cons] at legal permitted
    rcases List.pairwise_cons.mp permits with ⟨permitsFirst, permitsRest⟩
    intro step isStep
    rcases List.mem_cons.mp isStep with rfl | isLater
    · exact permitted.1
    split at isLater
    next after response undo processed =>
      split at isLater
      · cases isLater
      · have sameAuths : after.authsOf session = state.authsOf session :=
          ((StoreState.process_spec processed).effect legal.1).sameAuths.1 session
        have operation := (StoreState.process_spec processed).operation
        have notSetACL : ∀ own, request ≠ .setACL own := by
          rintro own rfl
          cases legal.1
        refine ih (operation.aclCounted sound) legal.2 ?_ ?_ step isLater
        · rw [sameAuths]
          exact permitsRest
        · intro later isMember
          exact operation.checkAuth sound notSetACL sameAuths (permitsFirst later isMember)
            (permitted.2 later isMember)
    all_goals cases isLater

end

namespace KeeperStore

variable {platform : Platform} {start store : KeeperStore} {call : Call}

theorem checkAuth_of_executes {storeRequest : StoreRequest} (checked : call.checkAcl = true)
    (executed : store.executes call = some storeRequest) :
    storeRequest.checkAuth store.toStoreState call.request.sessionId = .ok true := by
  have made := make_of_executes executed
  simp only [executes, made, checked, if_true] at executed
  split at executed
  · cases executed
  split at executed
  next passes => exact passes
  all_goals cases executed

/--
In every state that is reached by calls that keep the lists, the sub-requests of a Multi are
permitted in the states that they are executed in, if each list that the Multi grants permits
the later sub-requests.
-/
theorem multi_permitted (started : Started platform start)
    (reached : ReachableBy (next platform) (keepsAcls platform) start store)
    (checked : call.checkAcl = true) {txn : StoreRequestMultiTxn}
    (executed : store.executes call = some (.multi txn))
    (permits : txn.concreteRequests.Pairwise fun earlier later =>
      earlier.permits (store.authsOf call.request.sessionId) later = true) :
    ∀ step ∈ store.steps platform call,
      step.1.checkAuth call.request.sessionId step.2 = .ok true := by
  have sound := (reachable_storeSound started reached).acls.toAclCounted
  rcases isMulti_of_executes executed with ⟨type, requests, _, made⟩
  have legal := StoreRequestMultiTxn.make_legal made
  have permitted := checkAuth_of_executes checked executed
  rw [steps, executed]
  exact sound.steps_permitted legal permits (StoreRequestMultiTxn.forall_checkAuth permitted)

def identityRun : List Call :=
  [.sampleSession, .sample 1 (.single (.auth 0 (ascii "digest") (ascii "u:p")))]

def ownBranch : List SingleRequest :=
  [.create
    { path := ascii "/a", acls := [{ permissions := 31, scheme := ascii "auth", id := [] }] },
  .create { path := ascii "/a/b" }]

def ownBranchCall : Call := .sample 1 (.multi .write (ownBranch.map .single))

theorem multi_permitted_ownBranch :
    ∃ store, ReachableBy (next .sample) (keepsAcls .sample) sample store ∧
      ∃ state, (state, .create { path := ascii "/a/b" }) ∈ store.steps .sample ownBranchCall ∧
        ascii "/a" ∈ state.dataTree ∧
        state.checkAuth 1 (.create { path := ascii "/a/b" }) = .ok true := by
  refine exists_reached_of (fun store => (store.executes ownBranchCall).isSome ∧
      ownBranch.Pairwise (fun earlier later : SingleRequest =>
        earlier.permits (store.authsOf 1) later = true) ∧
      ∃ step ∈ store.steps .sample ownBranchCall,
        step.2 = .create { path := ascii "/a/b" } ∧ ascii "/a" ∈ step.1.dataTree)
    identityRun (by decide +kernel) ?_
  rintro store reached ⟨isExecuted, permits, ⟨state, request⟩, isStep, rfl, present⟩
  rcases Option.isSome_iff_exists.mp isExecuted with ⟨storeRequest, executed⟩
  have made := make_of_executes executed
  cases made
  exact ⟨state, isStep, present,
    multi_permitted started_sample reached rfl executed permits _ isStep⟩

def foreignBranch : List SingleRequest :=
  [.create
    { path := ascii "/a"
      acls := [{ permissions := 31, scheme := ascii "digest", id := ascii "v:q" }] },
  .create { path := ascii "/a/b" }]

def foreignBranchCall : Call := .sample 1 (.multi .write (foreignBranch.map .single))

/-- A session creates a node below one that it may not use. The second request is refused if
the two are sent one by one. -/
theorem foreignBranch_created :
    ∃ store after, ReachableBy (next .sample) (keepsAcls .sample) sample store ∧
      store.rollsBack .sample foreignBranchCall = false ∧
      (∃ step ∈ store.steps .sample foreignBranchCall, step.1.checkAuth 1 step.2 = .ok false) ∧
      store.next .sample foreignBranchCall = some after ∧ ascii "/a/b" ∈ after.dataTree ∧
      ∃ last, runFrom (next .sample) store
          (foreignBranch.map fun request => .sample 1 (.single request)) = some last ∧
        ascii "/a/b" ∉ last.dataTree := by
  simp only [exists_and_left]
  exact exists_reached [.sampleSession] (by decide +kernel)

end KeeperStore

end RaftKeeper
