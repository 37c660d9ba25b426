import RaftKeeper.Store.ACLInvariant
import RaftKeeper.Store.Progress
import RaftKeeper.Store.Root

/-!
# Atomicity of Multi

Each undo action inverts its operation exactly, except for the undo of a Create that made an alias,
of a Remove of the root, and of a Remove that dropped the last use of an access control list. Where
none of them occurs, a failing Multi leaves the store as it was.
-/

namespace RaftKeeper

open DataTree List StoreRequestMultiTxn

set_option maxRecDepth 10000

/-- Whether a Remove dropped the last use of an ACL number, and with it the list. -/
def Undo.dropsLastUse (state : StoreState) : Undo → Bool
  | remove undo => state.aclMap.usage undo.prevNode.aclId = 1
  | nothing | create _ | set .. => false

def SingleRequest.dropsLastUse (state : StoreState) (request : SingleRequest) : Bool :=
  (request.removed state).any fun removed => state.aclMap.usage removed.2.aclId = 1

/-- The operation is undone exactly. -/
structure Undo.Exact (state : StoreState) (undo : Undo) : Prop where
  noAlias : undo.aliases = false
  keepsRoot : undo.removesRoot = false
  keepsLastUse : undo.dropsLastUse state = false

/-- What a rollback restores of the ACL table. -/
structure AclRestored (before later : ACLMap) : Prop where
  agrees : before.Agrees later
  valid : later.Valid
  tight : later.Tight

/-- `later` is `before`, but for the next ACL number and empty entries of its maps. -/
structure Restored (before later : StoreState) : Prop where
  dataTree : later.dataTree = before.dataTree
  ephemerals : ∀ owner, ephemeralsOf later.ephemerals owner = ephemeralsOf before.ephemerals owner
  auths : before.SameAuths later.sessionAndAuth
  superDigest : later.superDigest = before.superDigest
  aclMap : AclRestored before.aclMap later.aclMap

/-- The invariants under which undo actions are exact. -/
structure StoreSound (state : StoreState) : Prop where
  tree : TreeSound state
  acls : AclSound state

variable {state : StoreState}

theorem AclSound.restored_refl (sound : AclSound state) : AclRestored state.aclMap state.aclMap :=
  ⟨.refl _, sound.valid, sound.tight⟩

theorem Restored.refl (sound : AclSound state) : Restored state state :=
  ⟨rfl, fun _ => rfl, fun _ => rfl, rfl, sound.restored_refl⟩

theorem StoreSound.restored {before later : StoreState} (sound : StoreSound before)
    (tree : TreeRestored before later) (acls : AclRestored before.aclMap later.aclMap) :
    StoreSound later := by
  refine ⟨sound.tree.restored tree, acls.valid, acls.tight, ?_⟩
  intro number nonzero
  rcases tree.dataTree with ⟨change, either, sameTree⟩
  have sameUses : uses later.dataTree number = uses before.dataTree number := by
    rw [sameTree]
    apply uses_modify
    intro node
    rcases either with rfl | rfl <;> rfl
  rw [sameUses, acls.agrees.usage]
  exact sound.acls.counted number nonzero

section

variable {zxid session time : Int64} {before after later : StoreState} {undo : Undo}

theorem Effect.storeSound (effect : Effect zxid session time before after undo)
    (sound : StoreSound before) (noAlias : undo.aliases = false) : StoreSound after :=
  ⟨effect.treeSound sound.tree noAlias, effect.aclSound sound.acls⟩

theorem Effect.sameAuths (effect : Effect zxid session time before after undo) :
    before.SameAuths after.sessionAndAuth ∧ after.superDigest = before.superDigest := by
  cases effect with
  | auths _ sameAuths | create _ _ sameAuths => exact ⟨sameAuths, rfl⟩
  | remove | set => exact ⟨fun _ => rfl, rfl⟩

theorem Effect.undo_aclMap (effect : Effect zxid session time before after undo)
    (sound : AclSound before) (keepsLastUse : undo.dropsLastUse before = false) {table : ACLMap}
    (restored : AclRestored after.aclMap table) :
    AclRestored before.aclMap (undo.aclMap table) := by
  rcases restored with ⟨agrees, valid, tight⟩
  cases effect with
  | auths => exact ⟨agrees, valid, tight⟩
  | create nodeAcls =>
    exact ⟨sound.valid.agrees_removeUsage_intern valid nodeAcls agrees, valid.removeUsage _,
      tight.removeUsage _⟩
  | remove found childless parentFound =>
    have notLast := of_decide_eq_false keepsLastUse
    exact ⟨sound.valid.agrees_addUsage_removeUsage notLast (sound.toAclCounted.used found) agrees,
      valid.addUsage_of_agrees notLast (sound.toAclCounted.used found) agrees, tight.addUsage _⟩
  | set => exact ⟨agrees, valid, tight⟩

variable {trace : Trace}

theorem Executed.storeSound_rollback {earlier : StoreState}
    (chain : Executed zxid session time before trace after) (sound : StoreSound before)
    (meets : ∀ entry ∈ trace, entry.2.aliases = false ∧ entry.2.dropsLastUse entry.1 = false)
    (runs : Undo.runAll trace.undos after = some earlier) : StoreSound earlier := by
  have kept : ∀ {before after undo}, Effect zxid session time before after undo →
      StoreSound before → undo.aliases = false ∧ undo.dropsLastUse before = false →
      StoreSound after := fun effect sound meets => effect.storeSound sound meets.1
  have undoes : ∀ {before after undo later}, Effect zxid session time before after undo →
      StoreSound before → undo.aliases = false ∧ undo.dropsLastUse before = false →
      TreeRestored after later ∧ AclRestored after.aclMap later.aclMap →
      ∃ earlier, undo.run later = some earlier ∧
        TreeRestored before earlier ∧ AclRestored before.aclMap earlier.aclMap := by
    intro before after undo later effect sound meets ⟨tree, acls⟩
    rcases effect.treeRestored sound.tree meets.1 tree with ⟨earlier, runs, treeBefore⟩
    refine ⟨earlier, runs, treeBefore, ?_⟩
    rcases Option.map_eq_some_iff.mp runs with ⟨_, _, rfl⟩
    exact effect.undo_aclMap sound.acls meets.2 acls
  have soundAfter := chain.invariant StoreSound _ kept sound meets
  rcases chain.rollback _ kept undoes sound meets
    ⟨.refl after, soundAfter.acls.restored_refl⟩ with ⟨restored, runsRestored, tree, acls⟩
  rw [runs] at runsRestored
  cases runsRestored
  exact sound.restored tree acls

theorem Effect.restored (effect : Effect zxid session time before after undo)
    (sound : StoreSound before) (isExact : undo.Exact before) (restored : Restored after later) :
    ∃ earlier, undo.run later = some earlier ∧ Restored before earlier := by
  rcases effect.undo_dataTree sound.tree.wellFormed isExact.noAlias (.inl rfl) with
    ⟨change, _, runs, unchanged⟩
  rw [unchanged isExact.keepsRoot rfl, Finmap.modify_id, Finmap.modify_id] at runs
  rcases effect.sameAuths with ⟨sameAuths, sameDigest⟩
  refine ⟨_, by rw [Undo.run, restored.dataTree, runs]; rfl, ?_⟩
  exact
    { dataTree := rfl
      ephemerals := effect.undo_ephemerals sound.tree.indexed restored.ephemerals
      auths := fun session => (restored.auths session).trans (sameAuths session)
      superDigest := restored.superDigest.trans sameDigest
      aclMap := effect.undo_aclMap sound.acls isExact.keepsLastUse restored.aclMap }

theorem Executed.restored (chain : Executed zxid session time before trace after)
    (sound : StoreSound before) (exact : ∀ entry ∈ trace, entry.2.Exact entry.1) :
    ∃ earlier, Undo.runAll trace.undos after = some earlier ∧ Restored before earlier := by
  have soundAfter := chain.invariant StoreSound (fun state undo => undo.Exact state)
    (fun effect sound isExact => effect.storeSound sound isExact.noAlias) sound exact
  exact chain.rollback (fun state undo => undo.Exact state)
    (fun effect sound isExact => effect.storeSound sound isExact.noAlias)
    (fun effect => effect.restored) sound exact (.refl soundAfter.acls)

end

namespace KeeperStore

/-- No alias is created, and no rolled back Remove was of the last node with an ACL list. -/
def keepsAcls (platform : Platform) (store : KeeperStore) (call : Call) : Prop :=
  store.createsNoAlias platform call ∧
    (store.rollsBack platform call = true → ∀ step ∈ store.steps platform call,
      step.2.dropsLastUse step.1 = false)

/-- Besides, no rolled back Remove was of the root. -/
def restorable (platform : Platform) (store : KeeperStore) (call : Call) : Prop :=
  store.keepsAcls platform call ∧
    (store.rollsBack platform call = true → ∀ step ∈ store.steps platform call,
      step.2.removesRoot step.1 = false)

instance {platform : Platform} {store : KeeperStore} {call : Call} :
    Decidable (store.keepsAcls platform call) :=
  inferInstanceAs (Decidable (_ ∧ _))

instance {platform : Platform} {store : KeeperStore} {call : Call} :
    Decidable (store.restorable platform call) :=
  inferInstanceAs (Decidable (_ ∧ _))

variable {platform : Platform} {store : KeeperStore} {call : Call}

theorem trace_dropsLastUse
    (keeps : ∀ step ∈ store.steps platform call, step.2.dropsLastUse step.1 = false) :
    ∀ entry ∈ store.trace platform call, entry.2.dropsLastUse entry.1 = false := by
  rintro ⟨state, undo⟩ isMember
  rcases exists_step_of_trace isMember with ⟨request, isStep, undone⟩
  have keepsHere := keeps _ isStep
  cases undone with
  | nothing | create | set => rfl
  | remove removed =>
    simp only [SingleRequest.dropsLastUse, removed, Option.any_some] at keepsHere
    exact keepsHere

theorem restorable.exact (meets : store.restorable platform call)
    (fails : store.rollsBack platform call = true) :
    ∀ entry ∈ store.trace platform call, entry.2.Exact entry.1 := fun entry isMember =>
  ⟨meets.1.1.trace entry isMember, trace_removesRoot (meets.2 fails) entry isMember,
    trace_dropsLastUse (meets.1.2 fails) entry isMember⟩

end KeeperStore

variable {platform : Platform} {after : StoreState}

theorem CallEffect.storeSound {store : KeeperStore} {call : Call}
    (effect : CallEffect platform store call after) (sound : StoreSound store.toStoreState)
    (meets : store.keepsAcls platform call) :
    StoreSound after := by
  refine ⟨effect.treeSound sound.tree meets.1, ?_⟩
  have acls := sound.acls
  cases effect with
  | leaves zxid leaves =>
    rcases leaves with ⟨executed, chain, ending⟩
    cases rolledBack : store.rollsBack platform call with
    | false =>
      simp only [rolledBack, Bool.false_eq_true, if_false] at ending
      rw [ending]
      exact chain.invariant AclSound (fun _ _ => True) (fun effect sound _ => effect.aclSound sound)
        acls fun _ _ => trivial
    | true =>
      simp only [rolledBack, if_true, append_nil] at ending
      refine (chain.storeSound_rollback sound (fun entry isMember => ?_) ending).acls
      exact ⟨meets.1.trace entry isMember,
        KeeperStore.trace_dropsLastUse (meets.2 rolledBack) entry isMember⟩
  | auth => exact ⟨acls.valid, acls.tight, acls.counted⟩
  | setACL nodeAcls auths sameAuths found => exact acls.setACL nodeAcls auths
  | close order session =>
    exact ⟨acls.valid, acls.tight, fun number nonzero =>
      (uses_foldl_dropEphemeral _ _ number).trans (acls.counted number nonzero)⟩

theorem KeeperStore.Started.aclSound {start : KeeperStore} (started : Started platform start) :
    AclSound start.toStoreState := by
  have unused := @KeeperStore.Started.everywhere _ _ started (KeeperNode.aclId · = 0) rfl
    (fun _ unused => unused) fun _ unused => unused
  rcases started with ⟨interval, digest, starts⟩
  rcases Option.map_eq_some_iff.mp starts with ⟨tree, added, rfl⟩
  refine ⟨ACLMap.valid_empty, ACLMap.tight_empty, fun number nonzero => ?_⟩
  refine le_of_eq (Finmap.count_eq_zero fun path node found => ?_)
  rw [unused path node found]
  exact decide_eq_false (Ne.symm nonzero)

theorem StoreRequestMultiTxn.Loops.lastFails {zxid session time : Int64}
    {operationType : OperationType} {requests : List SingleRequest} {rolledBack : Bool}
    {responses answers : List Response} {undoActions : List Undo}
    {result : Result StoreState (StoreState × List Response)}
    (loops : Loops platform zxid session time operationType requests state responses undoActions
      rolledBack result)
    (fails : rolledBack = true) (returns : result = .returned (after, answers)) :
    answers.getLast?.map (·.error) ≠ some .zok := by
  induction loops with
  | done => cases fails
  | throws => cases returns
  | step _ _ _ _ ih => exact ih fails returns
  | @fails _ rest _ _ _ _ _ _ _ _ failsHere =>
    cases returns
    cases rest with
    | nil => simpa [errorResponse] using failsHere.1
    | cons other others =>
      rw [map_cons, getLast?_append_of_ne_nil _ (by simp), map_const']
      simp only [getLast?_cons, getLast?_replicate, errorResponse]
      split <;> simp

namespace KeeperStore

variable {platform : Platform} {start store : KeeperStore} {call : Call}

theorem updateWatches_failedMulti (env : Environment) (manager : WatchManager) (session : Int64)
    (type : OperationType) (requests : List Request) {responses : List Response}
    (lastFails : responses.getLast?.map (·.error) ≠ some .zok) :
    updateWatches env manager session (.multi type requests)
      { payload := StoreRequest.multiPayload type responses } = (manager, []) := by
  cases type <;>
    simp [updateWatches, Request.isReadRequest, Request.getOpNum, Request.hasWatch, triggering,
      StoreRequest.multiPayload, triggerWatches, lastFails]

/-- The store is as it was, but for zxid, expiry times, the next ACL number and empty entries. -/
structure Unchanged (store after : KeeperStore) : Prop where
  dataTree : after.dataTree = store.dataTree
  ephemerals : ∀ session,
    ephemeralsOf after.ephemerals session = ephemeralsOf store.ephemerals session
  acls : ∀ path node, store.dataTree.lookup path = some node →
    ∃ acls, store.aclMap.convertNumber node.aclId = some acls ∧
      after.aclMap.convertNumber node.aclId = some acls
  aclMap : after.aclMap = { store.aclMap with maxAclId := after.aclMap.maxAclId }
  auths : ∀ session, after.authsOf session = store.authsOf session
  superDigest : after.superDigest = store.superDigest
  timeouts : after.sessionManager.sessionAndTimeout = store.sessionManager.sessionAndTimeout
  sessionIds : after.sessionManager.sessionIdCounter = store.sessionManager.sessionIdCounter
  watches : after.watchManager = store.watchManager

theorem Unchanged.of_restored {after : KeeperStore} (sound : StoreSound store.toStoreState)
    (restored : Restored store.toStoreState after.toStoreState)
    (timeouts : after.sessionManager.sessionAndTimeout = store.sessionManager.sessionAndTimeout)
    (sessionIds : after.sessionManager.sessionIdCounter = store.sessionManager.sessionIdCounter)
    (watches : after.watchManager = store.watchManager) : Unchanged store after where
  dataTree := restored.dataTree
  ephemerals := restored.ephemerals
  acls path node found := by
    rcases sound.acls.toAclCounted.resolves found with ⟨acls, resolved⟩
    exact ⟨acls, resolved,
      (restored.aclMap.agrees.convertNumber_eq (sound.acls.toAclCounted.used found)).trans resolved⟩
  aclMap := restored.aclMap.agrees.eq_of_tight sound.acls.valid restored.aclMap.valid
    sound.acls.tight restored.aclMap.tight
  auths := restored.auths
  superDigest := restored.superDigest
  timeouts := timeouts
  sessionIds := sessionIds
  watches := watches

theorem reachable_storeSound (started : Started platform start)
    (reached : ReachableBy (next platform) (keepsAcls platform) start store) :
    StoreSound store.toStoreState :=
  reached.invariant (StoreSound ·.toStoreState) ⟨started.treeSound.1, started.aclSound⟩
    fun sound meets moves => (next_callEffect moves).storeSound sound meets

theorem reachable_indexed {allowed : KeeperStore → Call → Prop} (started : Started platform start)
    (reached : ReachableBy (next platform) allowed start store) :
    store.sessionManager.sessionExpiryQueue.Indexed :=
  reached.invariant (·.sessionManager.sessionExpiryQueue.Indexed) started.indexed
    fun indexed _ moves => next_indexed moves indexed

variable {txn : StoreRequestMultiTxn}

theorem processRequest_rolledBack (sound : StoreSound store.toStoreState)
    (indexed : store.sessionManager.sessionExpiryQueue.Indexed)
    (executed : store.executes call = some (.multi txn)) (isWrite : txn.operationType = .write)
    (fails : store.rollsBack platform call = true) (meets : store.restorable platform call) :
    ∃ after answers, store.processRequest platform call = .returned (after, answers) ∧
      Unchanged store after := by
  rcases isMulti_of_executes executed with ⟨type, requests, isMulti, made⟩
  have exact := meets.exact fails
  simp only [trace, rollsBack, executed, StoreRequest.trace, StoreRequest.rollsBack] at exact fails
  have uniform := StoreRequestMultiTxn.make_uniform made
  have legal := StoreRequestMultiTxn.make_legal made
  rw [isWrite] at exact fails uniform
  rcases StoreRequestMultiTxn.loop_returns [] [] sound.tree uniform
    (fun entry isMember => (exact entry isMember).noAlias) (fun later _ => ⟨later, rfl⟩) with
    ⟨state, responses, looped⟩
  have loops := StoreRequestMultiTxn.loops_of_final (by rw [looped]; rfl)
  rcases loops.leaves legal (by rw [looped]; rfl) with ⟨last, chain, ending⟩
  simp only [fails, if_true, append_nil] at ending
  rcases chain.restored sound exact with ⟨earlier, runs, restored⟩
  rw [ending] at runs
  cases runs
  have lastFails := loops.lastFails fails looped
  rcases processRequest_multi indexed executed (isWrite ▸ looped) with
    ⟨queue, zxid, answers, processed⟩
  refine ⟨_, answers, processed, .of_restored sound restored rfl rfl ?_⟩
  rw [isMulti]
  exact congrArg Prod.fst (updateWatches_failedMulti _ _ _ type requests lastFails)

theorem processRequest_refused (sound : StoreSound store.toStoreState)
    (indexed : store.sessionManager.sessionExpiryQueue.Indexed) {type : OperationType}
    {requests : List Request} (isMulti : call.request.request = .multi type requests)
    (made : make requests {} = .ok txn)
    (fresh : ∀ zxid, call.newLastZxid = some zxid → store.zxid < zxid)
    (refused : store.executes call = none) :
    ∃ after answers, store.processRequest platform call = .returned (after, answers) ∧
      Unchanged store after := by
  have madeRequest : StoreRequest.make call.request.request = .ok (.multi txn) := by
    simp [isMulti, StoreRequest.make, made, Except.map]
  have same := Restored.refl sound.acls
  cases accepted : store.accepts call with
  | false =>
    -- the session is gone, and its request is dropped
    unfold accepts at accepted
    cases newZxid : call.newLastZxid with
    | some zxid => simp [newZxid, fresh zxid newZxid] at accepted
    | none =>
      simp only [newZxid] at accepted
      refine ⟨store, [], ?_, .of_restored sound same rfl rfl rfl⟩
      simp [processRequest, newZxid, dispatch, isMulti, accepted]
  | true =>
    rcases sound.acls.toAclCounted.checkAuth_multi call.request.sessionId txn.concreteRequests with
      ⟨passed, checked⟩
    have denied : call.checkAcl = true ∧ passed = false := by
      simp only [executes, madeRequest, accepted, StoreRequest.checkAuth, checked] at refused
      cases checks : call.checkAcl <;> cases passed <;> simp [checks] at refused ⊢
    rcases denied with ⟨checks, rfl⟩
    rcases SessionManager.updateSessionExpirationTime_spec indexed call.env.now
      call.request.sessionId with ⟨queue, _, updated⟩
    rcases processRequest_of_accepts platform accepted with ⟨dispatched, alive⟩
    rw [dispatched]
    have responds : ∀ zxid sessionManager, respond platform
        { store with zxid := zxid, sessionManager := sessionManager } call =
          .returned (store.toStoreState,
            { call.request.request.makeResponse with error := .znoauth }) := by
      intro zxid sessionManager
      simp [respond, madeRequest, checks, StoreRequest.checkAuth, checked]
    simp only [dispatch, isMulti, alive, Bool.false_eq_true, if_false, processSessionRequest,
      updated, processStoreRequest, responds]
    refine ⟨_, _, rfl, .of_restored sound same rfl rfl ?_⟩
    simp [updateWatches, Request.hasWatch]

/--
Atomicity. In every state reached by calls that keep the access control lists, a write
Multi that is restorable and is refused or fails at any position returns and leaves the
store as it was.
-/
theorem failedMulti_atomic (started : Started platform start)
    (reached : ReachableBy (next platform) (keepsAcls platform) start store)
    (meets : store.restorable platform call) {type : OperationType} {requests : List Request}
    {txn : StoreRequestMultiTxn} (isMulti : call.request.request = .multi type requests)
    (made : make requests {} = .ok txn) (isWrite : txn.operationType = .write)
    (fresh : ∀ zxid, call.newLastZxid = some zxid → store.zxid < zxid)
    (fails : store.executes call = none ∨ store.rollsBack platform call = true) :
    ∃ after answers, store.processRequest platform call = .returned (after, answers) ∧
      Unchanged store after := by
  have sound := reachable_storeSound started reached
  have indexed := reachable_indexed started reached
  cases executed : store.executes call with
  | none => exact processRequest_refused sound indexed isMulti made fresh executed
  | some storeRequest =>
    have isTxn : storeRequest = .multi txn := by
      have sameMade := make_of_executes executed
      simp only [isMulti, StoreRequest.make, made, Except.map, Except.ok.injEq] at sameMade
      exact sameMade.symm
    subst isTxn
    simp only [executed, reduceCtorEq, false_or] at fails
    exact processRequest_rolledBack sound indexed executed isWrite fails meets

def digestAcls : ACLs := [{ permissions := 31, scheme := ascii "digest", id := ascii "u:p" }]

def failingRemove : Call :=
  .sample 1 (.multi .write [.single (.remove { path := ascii "/x" }),
    .single (.check { path := ascii "/y" })])

/-- The undo action of a Remove counts the list of the node again but does not bring it back. -/
theorem failedMulti_loses_acl :
    ∃ store after, ReachableBy (next .sample) (fun _ _ => True) sample store ∧
      store.rollsBack .sample failingRemove = true ∧
      (store.processRequest .sample failingRemove).store = some after ∧
      ∃ node, store.dataTree.lookup (ascii "/x") = some node ∧
        after.dataTree.lookup (ascii "/x") = some node ∧
        store.aclMap.convertNumber node.aclId = some digestAcls ∧
        after.aclMap.convertNumber node.aclId = none := by
  simp only [exists_and_left]
  exact exists_reached
    [.sampleSession, .sample 1 (.single (.create { path := ascii "/x", acls := digestAcls }))]
    (by decide)

def sharedAclRun : List Call :=
  [.sampleSession, .sample 1 (.single (.create { path := ascii "/x", acls := digestAcls })),
    .sample 1 (.single (.create { path := ascii "/y", acls := digestAcls }))]

def failingMulti : Call :=
  .sample 1 (.multi .write [.single (.remove { path := ascii "/x" }),
    .single (.create { path := ascii "/z", isEphemeral := true, isSequential := true }),
    .single (.set { path := ascii "/", data := ascii "data" }),
    .single (.check { path := ascii "/w" })])

theorem failedMulti_atomic_sharedAclRun :
    ∃ store after answers, ReachableBy (next .sample) (keepsAcls .sample) sample store ∧
      store.rollsBack .sample failingMulti = true ∧
      store.processRequest .sample failingMulti = .returned (after, answers) ∧
      Unchanged store after := by
  simp only [exists_and_left]
  refine exists_reached_of (fun store => store.rollsBack .sample failingMulti = true ∧
    store.restorable .sample failingMulti) sharedAclRun (by decide) ?_
  rintro store reached ⟨fails, restorable⟩
  exact ⟨fails, failedMulti_atomic started_sample reached restorable rfl rfl rfl
    (fun _ some => nomatch some) (.inr fails)⟩

end KeeperStore

end RaftKeeper
