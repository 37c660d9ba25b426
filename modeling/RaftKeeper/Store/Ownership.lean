import RaftKeeper.Store.Sessions

/-!
# Who owns an ephemeral node

The index of ephemeral nodes agrees with the nodes in every reachable state, and each session that
owns a node is alive. A session that was closed while it was alive never owns a node again.
-/

namespace RaftKeeper

open Finmap Replicated

section

variable {zxid session time : Int64} {before after : StoreState} {undo : Undo}

/-- Every ephemeral node has such an owner, and no other node has one. -/
def OwnersIn (owns : Int64 → Prop) (tree : DataTree) : Prop :=
  ∀ path node, tree.lookup path = some node →
    if node.isEphemeral then owns node.stat.ephemeralOwner else node.stat.ephemeralOwner = 0

variable {owns : Int64 → Prop} {tree : DataTree}

theorem OwnersIn.mono {others : Int64 → Prop} (owners : OwnersIn owns tree)
    (implies : ∀ session, owns session → others session) : OwnersIn others tree := by
  intro path node found
  have isOwned := owners path node found
  split
  next isEphemeral =>
    rw [if_pos isEphemeral] at isOwned
    exact implies _ isOwned
  next persistent =>
    rw [if_neg persistent] at isOwned
    exact isOwned

theorem OwnersIn.of_related {laterTree : DataTree} (owners : OwnersIn owns tree)
    (same : Related (fun _ => SameOwnership) tree laterTree) : OwnersIn owns laterTree := by
  intro path node found
  rcases same.lookup_twin found with ⟨old, foundOld, isSame⟩
  have isOwned := owners path old foundOld
  rw [isSame.isEphemeral, isSame.owner]
  exact isOwned

theorem Effect.ownersIn (effect : Effect zxid session time before after undo)
    (owners : OwnersIn owns before.dataTree) (isOwner : owns session) :
    OwnersIn owns after.dataTree := by
  cases effect with
  | auths => exact owners
  | @create request parent nodeAcls auths sameAuths parentFound persistent absent named =>
    have gained : OwnersIn owns (before.dataTree.modify (getParentPath request.path)
        (.gainChild zxid (getBaseName (request.pathCreated parent)))) :=
      Everywhere.modify owners _ fun _ isOwned => isOwned
    apply Everywhere.insert gained
    dsimp only [CreateRequest.node]
    split
    · exact isOwner
    · rfl
  | remove found childless parentFound =>
    refine Everywhere.erase (Everywhere.modify owners _ ?_) _
    exact fun _ isOwned => isOwned
  | @set path node data found => exact Everywhere.insert owners (owners path node found)

theorem StoreRequestMultiTxn.Leaves.ownersIn {trace : Trace} {rolledBack : Bool}
    (leaves : Leaves zxid session time before trace rolledBack [] after)
    (sound : OwnershipSound before) (owners : OwnersIn owns before.dataTree)
    (isOwner : trace ≠ [] → owns session) : OwnersIn owns after.dataTree := by
  rcases leaves with ⟨executed, chain, ending⟩
  split at ending
  · rw [List.append_nil] at ending
    exact owners.of_related (chain.ownersRestored sound ending).owners
  · rw [ending]
    cases chain with
    | nil => exact owners
    | cons effect rest =>
      have owns := isOwner (List.cons_ne_nil _ _)
      exact rest.invariant (fun state => OwnersIn _ state.dataTree) (fun _ _ => True)
        (fun effect holds _ => effect.ownersIn holds owns) (effect.ownersIn owners owns)
        fun _ _ => trivial

end

theorem ownersIn_foldl_dropEphemeral {owns : Int64 → Prop} {paths : List Bytes} {tree : DataTree}
    (owners : OwnersIn owns tree) : OwnersIn owns (paths.foldl dropEphemeral tree) := by
  induction paths generalizing tree with
  | nil => exact owners
  | cons path rest ih =>
    apply ih
    refine Everywhere.erase (Everywhere.modify owners _ ?_) _
    exact fun _ isOwned => isOwned

section

variable {platform : Platform} {store : KeeperStore} {call : Call} {after : StoreState}

theorem CallEffect.ownersIn {owns : Int64 → Prop} (effect : CallEffect platform store call after)
    (sound : OwnershipSound store.toStoreState) (owners : OwnersIn owns store.dataTree)
    (isOwner : store.trace platform call ≠ [] → owns call.request.sessionId) :
    OwnersIn owns after.dataTree := by
  cases effect with
  | leaves zxid leaves => exact leaves.ownersIn sound owners isOwner
  | auth => exact owners
  | @setACL path node nodeAcls auths sameAuths found =>
    exact Everywhere.insert owners (owners path node found)
  | close order session => exact ownersIn_foldl_dropEphemeral owners

theorem KeeperStore.contains_of_trace (served : call.Served)
    (isExecuted : store.trace platform call ≠ []) :
    store.sessionManager.contains call.request.sessionId = true := by
  rw [trace] at isExecuted
  split at isExecuted
  · exact absurd rfl isExecuted
  next executed =>
    have accepted := accepts_of_executes executed
    rw [accepts, served.noZxid] at accepted
    exact accepted

end

/-- The call is the Close of the session. -/
structure Call.Closes (call : Call) (session : Int64) : Prop where
  isClose : call.request.request = .single .close
  isOwn : call.request.sessionId = session

namespace KeeperStore

/-- Ephemeral nodes belong to sessions that are alive. -/
structure Owned (first : Int64) (count : ℕ) (store : KeeperStore) : Prop where
  sound : OwnershipSound store.toStoreState
  ids : store.replicated.IdsBelow first count
  owners : OwnersIn (fun session => store.replicated.contains session) store.dataTree

variable {platform : Platform} {start store after : KeeperStore} {call : Call} {first : Int64}
  {count : ℕ}

theorem sessionStep_next (served : call.Served) (moves : store.next platform call = some after) :
    SessionStep store.replicated call.entry after.replicated := by
  rcases processRequest_refines served after moves with ⟨reply, applies, _⟩
  exact sessionStep_apply applies

theorem Owned.next (owned : store.Owned first count) (served : call.Served)
    (isBounded : count < 2 ^ 64) (moves : store.next platform call = some after) :
    after.Owned first (count + opens call.entry) := by
  have effect := next_callEffect moves
  have step := sessionStep_next served moves
  have sound := effect.ownershipSound owned.sound
  refine ⟨sound, step.idsBelow owned.ids isBounded, ?_⟩
  have isOwner : store.trace platform call ≠ [] →
      store.replicated.contains call.request.sessionId := contains_of_trace served
  have owners := effect.ownersIn owned.sound owned.owners isOwner
  have sameState : after.toStoreState = after.replicated.toStoreState := rfl
  generalize after.replicated = later at step sameState
  cases step with
  | close isClose =>
    intro path node found
    have isOwned := owners path node found
    split
    next isEphemeral =>
      rw [if_pos isEphemeral] at isOwned
      have isListed := sound.indexed.listed found isEphemeral
      rw [sameState, Replicated.closeSession] at isListed
      have notClosed : node.stat.ephemeralOwner ≠ call.entry.sessionId := by
        intro isClosed
        rw [isClosed] at isListed
        simp [ephemeralsOf] at isListed
      show (store.replicated.closeSession _).contains _ = true
      rw [contains_closeSession, if_neg notClosed]
      exact isOwned
    next persistent =>
      rw [if_neg persistent] at isOwned
      exact isOwned
  | opened isOpening =>
    refine owners.mono fun session isAlive => ?_
    rw [contains_newSession, isAlive]
    rfl
  | other state zxid kept isOther => exact owners

/--
A committed request as the servers apply it. The counter of session ids is signed, so that
it has no successor at its greatest value.
-/
def countsSession (store : KeeperStore) (call : Call) : Prop :=
  call.Served ∧
    (call.request.request.isNewSession → store.sessionManager.sessionIdCounter ≠ Int64.maxValue)

instance (store : KeeperStore) (call : Call) : Decidable (store.countsSession call) :=
  inferInstanceAs (Decidable (_ ∧ _))

/-- Ownership with the ids of a store that has started on an empty directory. -/
def OwnedWithin (count : ℕ) (store : KeeperStore) : Prop :=
  count < 2 ^ 63 - 1 ∧ store.Owned 1 count

theorem OwnedWithin.next (owned : store.OwnedWithin count) (counted : store.countsSession call)
    (moves : store.next platform call = some after) :
    after.OwnedWithin (count + opens call.entry) := by
  rcases owned with ⟨isBounded, owned⟩
  refine ⟨?_, owned.next counted.1 (by omega) moves⟩
  rw [opens]
  split
  next isOpening =>
    -- The counter is `1 + count`, and it is not the greatest number.
    have notLast := counted.2 isOpening
    have counter : store.sessionManager.sessionIdCounter = 1 + Int64.ofNat count :=
      owned.ids.counter
    have notBound : count ≠ 2 ^ 63 - 2 := by
      rintro rfl
      exact notLast (counter.trans (by decide))
    omega
  next => exact isBounded

variable {session : Int64}

theorem OwnedWithin.ne_zero (owned : store.OwnedWithin count)
    (isOld : ordinal 1 session < count) : session ≠ 0 := by
  rintro rfl
  have isLast : ordinal 1 0 = 2 ^ 64 - 1 := by decide
  have isBounded := owned.1
  omega

variable {path : Bytes} {node : KeeperNode}

theorem OwnedWithin.isEphemeral_iff (owned : store.OwnedWithin count)
    (found : store.dataTree.lookup path = some node) :
    node.isEphemeral ↔ node.stat.ephemeralOwner ≠ 0 := by
  have isOwned := owned.2.owners path node found
  constructor
  · intro isEphemeral
    rw [if_pos isEphemeral] at isOwned
    exact owned.ne_zero (owned.2.ids.alive _ isOwned)
  · intro hasOwner
    by_contra persistent
    rw [if_neg persistent] at isOwned
    exact hasOwner isOwned

theorem Started.ownedWithin (started : Started platform start) : start.OwnedWithin 0 := by
  have sound := started.ownershipSound
  have unowned : OwnersIn (fun _ => False) start.dataTree :=
    started.everywhere rfl (fun _ isOwned => isOwned) fun _ isOwned => isOwned
  rcases started with ⟨interval, digest, starts⟩
  rcases Option.map_eq_some_iff.mp starts with ⟨tree, added, rfl⟩
  refine ⟨by decide, ⟨sound, ⟨rfl, ?_⟩, ?_⟩⟩
  · intro session isAlive
    cases isAlive
  · exact unowned.mono fun _ impossible => impossible.elim

theorem reachable_ownedWithin (started : Started platform start)
    (reached : ReachableBy (next platform) countsSession start store) :
    ∃ count, store.OwnedWithin count := by
  refine reached.invariant (fun store => ∃ count, store.OwnedWithin count)
    ⟨0, started.ownedWithin⟩ ?_
  rintro before call after ⟨count, owned⟩ counted moves
  exact ⟨_, owned.next counted moves⟩

/-- The session has an id that was handed out, and it is no longer alive. -/
def Over (session : Int64) (store : KeeperStore) : Prop :=
  ∃ count, store.OwnedWithin count ∧ ordinal 1 session < count ∧
    store.replicated.contains session = false

theorem Over.next (ended : store.Over session) (counted : store.countsSession call)
    (moves : store.next platform call = some after) : after.Over session := by
  rcases ended with ⟨count, owned, isOld, isEnded⟩
  have isBounded : count < 2 ^ 64 := by
    have := owned.1
    omega
  refine ⟨_, owned.next counted moves, by omega, ?_⟩
  exact (sessionStep_next counted.1 moves).ended owned.2.ids isBounded isOld isEnded

theorem Over.unowned (ended : store.Over session) (found : store.dataTree.lookup path = some node) :
    node.stat.ephemeralOwner ≠ session := by
  rcases ended with ⟨count, owned, isOld, isEnded⟩
  rintro rfl
  have isOwned := owned.2.owners path node found
  have isEphemeral := (owned.isEphemeral_iff found).mpr (owned.ne_zero isOld)
  rw [if_pos isEphemeral] at isOwned
  rw [isEnded] at isOwned
  cases isOwned

theorem OwnedWithin.ended (owned : store.OwnedWithin count)
    (isAlive : store.sessionManager.contains session) (closes : call.Closes session)
    (counted : store.countsSession call) (moves : store.next platform call = some after) :
    after.Over session := by
  refine ⟨_, owned.next counted moves, ?_, ?_⟩
  · have := owned.2.ids.alive session isAlive
    omega
  · have step := sessionStep_next counted.1 moves
    have isClose : call.entry.request = .single .close := closes.isClose
    generalize after.replicated = later at step
    cases step with
    | close =>
      have isOwn : call.entry.sessionId = session := closes.isOwn
      rw [contains_closeSession, isOwn, if_pos rfl]
    | opened isOpening =>
      rw [isClose] at isOpening
      cases isOpening
    | other state zxid kept isOther notClose => exact absurd isClose notClose

/--
In every reachable state the index of ephemeral nodes lists what the nodes say, each session
that owns a node is alive, and no ephemeral node has children. A session that was alive when
it was closed never owns a node again.
-/
theorem ephemerals_owned (started : Started platform start)
    (reached : ReachableBy (next platform) countsSession start store) :
    (∀ session path, path ∈ ephemeralsOf store.ephemerals session ↔
      ∃ node, store.dataTree.lookup path = some node ∧ node.isEphemeral ∧
        node.stat.ephemeralOwner = session) ∧
    (∀ session, ephemeralsOf store.ephemerals session ≠ ∅ → store.sessionManager.contains session) ∧
    (∀ path node, store.dataTree.lookup path = some node →
      (node.isEphemeral ↔ node.stat.ephemeralOwner ≠ 0) ∧
      (node.isEphemeral → node.children = ∅)) ∧
    ∀ session call closed later, store.sessionManager.contains session →
      call.Closes session → store.countsSession call → store.next platform call = some closed →
      ReachableBy (next platform) countsSession closed later →
      ∀ path node, later.dataTree.lookup path = some node → node.stat.ephemeralOwner ≠ session := by
  rcases reachable_ownedWithin started reached with ⟨count, owned⟩
  have indexed := owned.2.sound.indexed
  refine ⟨fun session path => ⟨indexed.owned, ?_⟩, ?_, fun path node found => ?_, ?_⟩
  · rintro ⟨node, found, isEphemeral, rfl⟩
    exact indexed.listed found isEphemeral
  · intro session isOwner
    rcases Finset.nonempty_iff_ne_empty.mpr isOwner with ⟨path, isMember⟩
    rcases indexed.owned isMember with ⟨node, found, isEphemeral, rfl⟩
    have isOwned := owned.2.owners path node found
    rw [if_pos isEphemeral] at isOwned
    exact isOwned
  · exact ⟨owned.isEphemeral_iff found, indexed.leaf found⟩
  · intro session call closed later isAlive closes counted moves reachedLater path node found
    have ended : later.Over session :=
      reachedLater.invariant (Over session) (owned.ended isAlive closes counted moves)
        fun ended counted moves => ended.next counted moves
    exact ended.unowned found

def ownedRun : List Call :=
  [.sampleSession, .sample 1 (.single (.create { path := ascii "/x", isEphemeral := true })),
    .sample 1 (.multi .write [.single (.remove { path := ascii "/x" }),
      .single (.check { path := ascii "/y" })])]

theorem ephemerals_owned_ownedRun :
    ∃ store, ReachableBy (next .sample) countsSession sample store ∧
      store.sessionManager.contains 1 = true ∧
      (∃ node, store.dataTree.lookup (ascii "/x") = some node ∧ node.isEphemeral ∧
        node.stat.ephemeralOwner = 1) ∧
      ∀ closed, store.next .sample (.sample 1 (.single .close)) = some closed →
        ∀ path node, closed.dataTree.lookup path = some node → node.stat.ephemeralOwner ≠ 1 := by
  refine exists_reached_of (fun store => store.sessionManager.contains 1 = true ∧
    ascii "/x" ∈ ephemeralsOf store.ephemerals 1) ownedRun (by decide +kernel) ?_
  rintro store reached ⟨isAlive, isOwned⟩
  have owned := ephemerals_owned started_sample reached
  refine ⟨isAlive, (owned.1 1 _).mp isOwned, fun closed moves => ?_⟩
  have counted : store.countsSession (.sample 1 (.single .close)) := ⟨⟨rfl, rfl⟩, fun isOpening =>
    Bool.noConfusion isOpening⟩
  exact owned.2.2.2 1 _ closed closed isAlive ⟨rfl, rfl⟩ counted moves .start

/-- A store on which session 1 has been closed before it was opened. -/
def closedEarly : KeeperStore :=
  (sample.next .sample (.sample 1 (.single .close))).get (by decide +kernel)

/-- A Close that comes before its session does not keep the session from owning a node. -/
theorem closedEarly_owns_later :
    sample.next .sample (.sample 1 (.single .close)) = some closedEarly ∧
      ∃ later, ReachableBy (next .sample) countsSession closedEarly later ∧
        ∃ node, later.dataTree.lookup (ascii "/x") = some node ∧ node.stat.ephemeralOwner = 1 := by
  refine ⟨(Option.some_get _).symm, ?_⟩
  exact exists_reached [.sampleSession,
    .sample 1 (.single (.create { path := ascii "/x", isEphemeral := true }))] (by decide +kernel)

end KeeperStore

end RaftKeeper
