import RaftKeeper.Snapshot.Restore
import RaftKeeper.Store.Root

/-!
# Snapshots of reachable states

A state that is reached without aliases and without a Remove of the root has a tree that both
writers walk completely. The loader sizes the set of children by `stat.numChildren`, which is
negative as soon as a system node is removed, because `initializeSystemNodes` does not count its
nodes.
-/

namespace RaftKeeper

open Finmap SnapshotObject SnapshotSettings

set_option maxRecDepth 10000

def Unhaunted (tree : DataTree) : Prop :=
  Everywhere (fun _ node => [] ∉ KeeperNode.children node) tree

theorem unhaunted_insert_name {name : Bytes} (named : name ≠ []) (node : KeeperNode)
    (unnamed : [] ∉ node.children) : [] ∉ insert name node.children := by
  rw [Finset.mem_insert, not_or]
  exact ⟨Ne.symm named, unnamed⟩

theorem unhaunted_erase_name (name : Bytes) (node : KeeperNode) (unnamed : [] ∉ node.children) :
    [] ∉ node.children.erase name :=
  fun isMember => unnamed (Finset.mem_of_mem_erase isMember)

variable {after before : StoreState} {zxid session time : Int64} {undo : Undo}

theorem Effect.unhaunted (effect : Effect zxid session time before after undo)
    (unhaunted : Unhaunted before.dataTree) :
    Unhaunted after.dataTree := by
  cases effect with
  | auths => exact unhaunted
  | @create request parent nodeAcls auths sameAuths parentFound persistent absent named =>
    exact (unhaunted.modify _ (unhaunted_insert_name named)).insert (Finset.notMem_empty _)
  | remove found childless parentFound =>
    exact (unhaunted.modify _ (unhaunted_erase_name _)).erase _
  | set data found =>
    have unnamed := unhaunted _ _ found
    exact unhaunted.insert unnamed

def SameDataTree (before later : StoreState) : Prop := later.dataTree = before.dataTree

theorem Effect.dataTree_restored {later : StoreState}
    (effect : Effect zxid session time before after undo) (sound : TreeSound before)
    (meets : undo.aliases = false ∧ undo.removesRoot = false)
    (restored : SameDataTree after later) :
    ∃ earlier, undo.run later = some earlier ∧ SameDataTree before earlier := by
  rcases effect.undo_dataTree sound.wellFormed meets.1 (.inl rfl) with ⟨change, _, runs, isId⟩
  rw [isId meets.2 rfl, modify_id, modify_id, ← restored] at runs
  refine ⟨_, Option.map_eq_some_iff.mpr ⟨_, runs, rfl⟩, rfl⟩

theorem StoreRequestMultiTxn.Leaves.unhaunted {trace : Trace} {rolledBack : Bool}
    (leaves : Leaves zxid session time before trace rolledBack [] after)
    (sound : TreeSound before) (unhaunted : Unhaunted before.dataTree)
    (meets : ∀ entry ∈ trace, entry.2.aliases = false ∧ entry.2.removesRoot = false) :
    Unhaunted after.dataTree := by
  rcases leaves with ⟨executed, chain, ending⟩
  cases rolledBack with
  | false =>
    simp only [Bool.false_eq_true, if_false] at ending
    subst ending
    exact chain.invariant (Unhaunted ·.dataTree) (fun _ _ => True)
      (fun effect unhaunted _ => effect.unhaunted unhaunted) unhaunted fun _ _ => trivial
  | true =>
    simp only [if_true, List.append_nil] at ending
    rcases chain.rollback (fun _ undo => undo.aliases = false ∧ undo.removesRoot = false)
      (fun effect sound meets => effect.treeSound sound meets.1)
      (fun effect => effect.dataTree_restored) sound meets (.refl executed.dataTree) with
      ⟨earlier, runs, same⟩
    rw [ending] at runs
    cases runs
    exact same ▸ unhaunted

namespace KeeperStore

/-- No Create that a call starts is for an alias, and no Remove is for a root without children. -/
def keepsTree (platform : Platform) (store : KeeperStore) (call : Call) : Prop :=
  store.createsNoAlias platform call ∧
    ∀ step ∈ store.steps platform call, step.2.removesRoot step.1 = false

instance {platform : Platform} {store : KeeperStore} {call : Call} :
    Decidable (store.keepsTree platform call) :=
  inferInstanceAs (Decidable (_ ∧ _))

end KeeperStore

variable {store : KeeperStore} {platform : Platform}

theorem CallEffect.unhaunted {call : Call} (effect : CallEffect platform store call after)
    (sound : TreeSound store.toStoreState) (unhaunted : Unhaunted store.dataTree)
    (keeps : store.keepsTree platform call) : Unhaunted after.dataTree := by
  cases effect with
  | leaves zxid leaves =>
    exact leaves.unhaunted sound unhaunted fun entry isMember =>
      ⟨keeps.1.trace entry isMember, KeeperStore.trace_removesRoot keeps.2 entry isMember⟩
  | auth => exact unhaunted
  | setACL nodeAcls auths sameAuths found =>
    have unnamed := unhaunted _ _ found
    exact unhaunted.insert unnamed
  | close order session =>
    refine List.foldlRecOn (motive := Unhaunted) _ _ unhaunted ?_
    intro tree unhaunted path _
    exact (unhaunted.modify _ (unhaunted_erase_name _)).erase path

theorem KeeperStore.Started.unhaunted {start : KeeperStore} (started : Started platform start) :
    Unhaunted start.dataTree :=
  started.everywhere (Finset.notMem_empty _) (fun named => unhaunted_insert_name named _)
    fun _ unnamed => unnamed

namespace KeeperStore

variable {platform : Platform} {start store : KeeperStore}

theorem reachable_treeRooted (started : Started platform start)
    (reached : ReachableBy (next platform) (keepsTree platform) start store) :
    TreeRooted store.dataTree := by
  have sound := reachable_treeSound started (reached.mono fun _ _ keeps => keeps.1)
  have root := (reached.invariant
    (fun store => OwnershipSound store.toStoreState ∧ rootPath ∈ store.dataTree)
    ⟨started.ownershipSound, started.root_mem⟩ fun holds keeps moves =>
      ⟨(next_callEffect moves).ownershipSound holds.1,
        (next_callEffect moves).root_mem holds.1 holds.2 (.inr keeps.2)⟩).2
  have unhaunted := reached.invariant
    (fun store => TreeSound store.toStoreState ∧ Unhaunted store.dataTree)
    ⟨started.treeSound.1, started.unhaunted⟩ fun holds keeps moves =>
      ⟨(next_callEffect moves).treeSound holds.1 keeps.1,
        (next_callEffect moves).unhaunted holds.1 holds.2 keeps⟩
  rcases Option.isSome_iff_exists.mp (lookup_isSome.mpr root) with ⟨node, found⟩
  exact { sound.wellFormed with root := ⟨node, found, unhaunted.2 _ _ found⟩ }

end KeeperStore

attribute [mk_iff] KeeperNode.Readable KeeperStore.Readable KeeperStore.OwnersIndexed
  SnapshotBatchBody.Fits

instance {path : Bytes} {node : KeeperNode} : Decidable (node.Readable path) :=
  decidable_of_iff' _ (node.readable_iff path)

instance {acls : ACLs} : Decidable acls.Readable :=
  inferInstanceAs (Decidable (_ ∧ ∀ acl ∈ acls, _ ∧ _))

instance {auths : AuthIDs} : Decidable (AuthIDs.Readable auths) :=
  inferInstanceAs (Decidable (_ ∧ ∀ auth ∈ auths, _ ∧ _))

instance {store : KeeperStore} : Decidable store.Readable :=
  decidable_of_iff' _ store.readable_iff

def KeeperStore.elementsWithin (bound : ℕ) (store : KeeperStore) : Bool :=
  decide (∀ path node, store.dataTree.lookup path = some node →
    (serializeKeeperNode (path, node)).length ≤ bound) &&
  decide (∀ session timeoutMs,
    store.sessionManager.sessionAndTimeout.lookup session = some timeoutMs →
      (serializeSession store.sessionAndAuth (session, timeoutMs)).length ≤ bound) &&
  decide (∀ number acls, store.aclMap.numToAcl.lookup number = some acls →
    (serializeAcl (number, acls)).length ≤ bound)

variable {bound : ℕ}

theorem KeeperStore.batchesShort_of_elementsWithin (within : store.elementsWithin bound = true)
    {settings : SnapshotSettings}
    (small : 8 + settings.saveBatchSize * (4 + bound) < SnapshotBatchBody.magicLength) :
    store.BatchesShort settings := by
  simp only [elementsWithin, Bool.and_eq_true, decide_eq_true_eq] at within
  rcases within with ⟨⟨nodes, sessions⟩, acls⟩
  exact ⟨chunksShort_of_bound nodes small, chunksShort_of_bound sessions small,
    chunksShort_of_bound acls small⟩

instance {store : KeeperStore} : Decidable store.OwnersIndexed :=
  decidable_of_iff' _ store.ownersIndexed_iff

instance SnapshotBatchBody.decidableFits {batch : SnapshotBatchBody} : Decidable batch.Fits :=
  decidable_of_iff' _ batch.fits_iff

def SnapshotSettings.sample : SnapshotSettings where
  saveBatchSize := 10000
  maxObjectNodeSize := 1000000

theorem SnapshotSettings.positive_sample : sample.Positive := ⟨by decide, by decide⟩

def SnapshotSettings.one : SnapshotSettings where
  saveBatchSize := 1
  maxObjectNodeSize := 1

theorem SnapshotSettings.positive_one : one.Positive := ⟨by decide, by decide⟩

def SnapshotOrder.sorted : SnapshotOrder where
  children := .sortedBy bytesKey bytesKey_injective
  bucket := .sortedBy bytesKey bytesKey_injective
  sessions := .sortedBy sessionKey sessionKey_injective
  acls := .sortedBy id Function.injective_id
  intMap := .sortedBy bytesKey bytesKey_injective

namespace KeeperStore

variable {platform : Platform} {start store : KeeperStore}

/--
A store with a well-formed tree, an index of ephemeral nodes that agrees with their owners
and identities for its own sessions only is restored from what either writer has written.
-/
theorem snapshots_restore {settings : SnapshotSettings} (order : SnapshotOrder)
    (platform : Platform) (now interval : Int64) (digest : Bytes)
    (rooted : TreeRooted store.dataTree) (readable : store.Readable)
    (owners : store.OwnersIndexed)
    (identified : ∀ session, store.authsOf session ≠ [] →
      session ∈ store.sessionManager.sessionAndTimeout)
    (positive : settings.Positive)
    (few : objectCount settings.maxObjectNodeSize store.dataTree.keys.card + 3 < 2 ^ 31)
    (fits : ∀ objects, store.createObjects settings order = some objects ∨
      (SnapTask.make platform order store).createObjects settings order = some objects →
        ∀ object ∈ objects, ∀ batch ∈ object.batches, batch.Fits) :
    (∃ objects loaded, store.createObjects settings order = some objects ∧
      (new interval digest).loadLatestSnapshot platform now (objects.map bytes) =
        .ok loaded ∧ loaded.SameContent store) ∧
    ∃ objects loaded,
      (SnapTask.make platform order store).createObjects settings order = some objects ∧
      (new interval digest).loadLatestSnapshot platform now (objects.map SnapshotObject.bytes) =
        .ok loaded ∧ loaded.SameContent store := by
  rcases (createObjects_writes rooted positive few readable.elementsShort order).loads rooted
    readable (fun objects written => fits objects (.inl written)) platform now interval digest with
    ⟨objects, loaded, written, loads, restored, _⟩
  rcases (SnapTask.createObjects_writes rooted positive few readable.elementsShort platform
    order).loads rooted readable (fun objects written => fits objects (.inr written)) platform now
    interval digest with
    ⟨asyncObjects, asyncLoaded, asyncWritten, asyncLoads, asyncRestored, _⟩
  exact ⟨⟨objects, loaded, written, loads, restored.sameContent owners identified⟩,
    asyncObjects, asyncLoaded, asyncWritten, asyncLoads,
    asyncRestored.sameContent owners identified⟩

def snapshotRun : List Call :=
  [.sampleSession, .sample 1 (.single (.auth 0 (ascii "digest") (ascii "u:p"))),
    .sample 1 (.single (.create
      { path := ascii "/x"
        data := ascii "data"
        acls := [{ permissions := 31, scheme := ascii "digest", id := ascii "u:p" }] })),
    .sample 1 (.single (.create { path := ascii "/e", isEphemeral := true }))]

theorem snapshots_restore_snapshotRun :
    ∃ store objects loaded, ReachableBy (next .sample) (keepsTree .sample) sample store ∧
      ascii "/e" ∈ ephemeralsOf store.ephemerals 1 ∧ store.authsOf 1 ≠ [] ∧
      store.createObjects .sample .sorted = some objects ∧
      (new 500 []).loadLatestSnapshot .sample 0 (objects.map bytes) =
        .ok loaded ∧ loaded.SameContent store := by
  simp only [exists_and_left]
  refine exists_reached_of (fun store => (ascii "/e" ∈ ephemeralsOf store.ephemerals 1 ∧
      store.authsOf 1 ≠ []) ∧ store.Readable ∧ store.OwnersIndexed ∧
      store.elementsWithin 1000 = true ∧
      (∀ session auths, store.sessionAndAuth.lookup session = some auths →
        (store.sessionManager.sessionAndTimeout.lookup session).isSome) ∧
      store.dataTree.keys.card ≤ 10) snapshotRun (by decide) ?_
  rintro store reached ⟨⟨owned, identity⟩, readable, owners, within, identified, small⟩
  have rooted := reachable_treeRooted started_sample reached
  have few := objectCount_le SnapshotSettings.sample.maxObjectNodeSize store.dataTree.keys.card
  have short : store.BatchesShort .sample := batchesShort_of_elementsWithin within (by decide)
  have restores := (snapshots_restore .sorted .sample 0 500 [] rooted readable owners ?_
    positive_sample (by omega) ?_).1
  · rcases restores with ⟨objects, loaded, written, loads, same⟩
    exact ⟨owned, identity, objects, written, loaded, loads, same⟩
  · intro session identity
    cases found : store.sessionAndAuth.lookup session with
    | none => simp [StoreState.authsOf, found] at identity
    | some auths => exact lookup_isSome.mp (identified session auths found)
  · rintro objects (written | written)
    · exact (createObjects_writes rooted positive_sample (by omega) readable.elementsShort _).fits
        positive_sample short written
    · exact (SnapTask.createObjects_writes rooted positive_sample (by omega)
        readable.elementsShort ..).fits positive_sample short written

theorem treeRooted_singleton (root : KeeperNode) (childless : root.children = ∅) :
    TreeRooted (singleton rootPath root) where
  parent := by
    intro path node found notRoot
    rw [lookup_eq_none.mpr (by simpa using notRoot)] at found
    cases found
  canonical := by
    intro path node found notRoot
    rw [lookup_eq_none.mpr (by simpa using notRoot)] at found
    cases found
  child := by
    intro path node name found listed
    by_cases isRoot : path = rootPath
    · rw [isRoot, lookup_singleton_eq] at found
      cases found
      simp [childless] at listed
    · rw [lookup_eq_none.mpr (by simpa using isRoot)] at found
      cases found
  root := ⟨root, lookup_singleton_eq, by simp [childless]⟩

def strayStore : KeeperStore :=
  { new 500 [] with
    sessionAndAuth := singleton 5 [{ scheme := ascii "digest", id := ascii "u:p" }]
    ephemerals := singleton 5 {ascii "/e"} }

def dataStore (data : Bytes) : KeeperStore :=
  { new 500 [] with dataTree := singleton rootPath { data := data } }

variable {data : Bytes}

theorem lookup_dataStore {path : Bytes} {node : KeeperNode}
    (found : (dataStore data).dataTree.lookup path = some node) :
    path = rootPath ∧ node = { data := data } := by
  by_cases isRoot : path = rootPath
  · rw [isRoot, dataStore, lookup_singleton_eq] at found
    cases found
    exact ⟨isRoot, rfl⟩
  · rw [dataStore, lookup_eq_none.mpr (by simpa using isRoot)] at found
    cases found

theorem dataStore_not_loaded (long : data.length = maxStringOrArraySize + 1) :
    ∃ objects, (dataStore data).createObjects .one .sorted = some objects ∧
      (∀ object ∈ objects, ∀ batch ∈ object.batches, batch.Fits) ∧
      ∀ loaded, (new 500 []).loadLatestSnapshot .sample 0 (objects.map bytes) ≠
        .ok loaded := by
  have rooted : TreeRooted (dataStore data).dataTree := treeRooted_singleton _ rfl
  have few := objectCount_le one.maxObjectNodeSize
    (dataStore data).dataTree.keys.card
  have single : (dataStore data).dataTree.keys.card = 1 := rfl
  have sizes : ∀ path node, (dataStore data).dataTree.lookup path = some node →
      (serializeKeeperNode (path, node)).length ≤ maxStringOrArraySize + 1000 := by
    intro path node found
    rcases lookup_dataStore found with ⟨rfl, rfl⟩
    simp only [serializeKeeperNode, writeString, writeInt32, writeUInt64, writeBool, Stat.toBytes,
      writeInt64, List.length_append, length_bigEndian, List.length_singleton, long, rootPath]
    omega
  have noSession : ∀ session timeoutMs,
      (dataStore data).sessionManager.sessionAndTimeout.lookup session = some timeoutMs →
        (serializeSession (dataStore data).sessionAndAuth (session, timeoutMs)).length ≤ 0 := by
    intro session timeoutMs found
    cases found
  have noAcl : ∀ number acls, (dataStore data).aclMap.numToAcl.lookup number = some acls →
      (serializeAcl (number, acls)).length ≤ 0 := by
    intro number acls found
    cases found
  have short : (dataStore data).BatchesShort .one :=
    ⟨chunksShort_of_bound sizes (by decide), chunksShort_of_bound noSession (by decide),
      chunksShort_of_bound noAcl (by decide)⟩
  have elementsShort : (dataStore data).ElementsShort :=
    ⟨fun path node found => (sizes path node found).trans (by decide),
      fun session timeoutMs found => (noSession session timeoutMs found).trans (by decide),
      fun number acls found => (noAcl number acls found).trans (by decide)⟩
  rcases createObjects_writes rooted positive_one (by omega) elementsShort .sorted with
    ⟨nodes, dataObjects, snapshot, batches, written⟩
  have fits := snapshot.fits positive_one batches short .sorted
  refine ⟨_, written, fits, fun loaded loads => ?_⟩
  have found : (dataStore data).dataTree.lookup rootPath = some { data := data } :=
    lookup_singleton_eq
  have accepted := snapshot.accepted elementsShort fits (indexed_new 500 []) loads
  have dataShort := (accepted.nodes _ ((snapshot.lists.mem_iff _ _).mpr found)).2.1
  exact absurd long (ne_of_lt (Nat.lt_succ_of_le dataShort))

/-- What does not come back: an identity and an index that the rest of the store does not bear
out, and a string that is too long for the loader. -/
theorem snapshots_lose :
    (TreeRooted strayStore.dataTree ∧
      (∀ path node, strayStore.dataTree.lookup path = some node →
        node.stat.numChildren.toInt = node.children.card) ∧
      ∃ objects loaded, strayStore.createObjects .sample .sorted = some objects ∧
        (∀ object ∈ objects, ∀ batch ∈ object.batches, batch.Fits) ∧
        (new 500 []).loadLatestSnapshot .sample 0 (objects.map bytes) = .ok loaded ∧
        strayStore.authsOf 5 ≠ [] ∧ loaded.authsOf 5 = [] ∧
        ephemeralsOf strayStore.ephemerals 5 ≠ ∅ ∧ ephemeralsOf loaded.ephemerals 5 = ∅) ∧
    ∃ data : Bytes, data.length = maxStringOrArraySize + 1 ∧ TreeRooted (dataStore data).dataTree ∧
      (∀ path node, (dataStore data).dataTree.lookup path = some node →
        node.stat.numChildren.toInt = node.children.card) ∧
      ∃ objects, (dataStore data).createObjects .one .sorted = some objects ∧
        (∀ object ∈ objects, ∀ batch ∈ object.batches, batch.Fits) ∧
        ∀ loaded, (new 500 []).loadLatestSnapshot .sample 0 (objects.map bytes) ≠
          .ok loaded := by
  have exists_long : ∃ data : Bytes, data.length = maxStringOrArraySize + 1 :=
    ⟨List.replicate _ 0, List.length_replicate⟩
  rcases exists_long with ⟨data, long⟩
  refine ⟨⟨treeRooted_singleton _ rfl, by decide, ?_⟩, data, long, treeRooted_singleton _ rfl, ?_,
    dataStore_not_loaded long⟩
  · simp only [exists_and_left, ← Except.toOption_eq_some_iff, loadLatestSnapshot,
      parseObjects_eq_parseObjectsWithin]
    decide +kernel
  · intro path node found
    rcases lookup_dataStore found with ⟨rfl, rfl⟩
    rfl

/--
In every state reached by calls that keep the tree, both writers make a snapshot that loads,
and the loaded stores have the same content, if strings are short and no number of children
is negative.
-/
theorem snapshots_load (started : Started platform start)
    (reached : ReachableBy (next platform) (keepsTree platform) start store)
    (readable : store.Readable) {settings : SnapshotSettings} (positive : settings.Positive)
    (short : store.BatchesShort settings)
    (few : objectCount settings.maxObjectNodeSize store.dataTree.keys.card + 3 < 2 ^ 31)
    (order asyncOrder : SnapshotOrder) (now interval : Int64) (digest : Bytes) :
    ∃ objects asyncObjects loaded asyncLoaded, store.createObjects settings order = some objects ∧
      (SnapTask.make platform asyncOrder store).createObjects settings asyncOrder =
        some asyncObjects ∧
      (new interval digest).loadLatestSnapshot platform now (objects.map bytes) = .ok loaded ∧
      (new interval digest).loadLatestSnapshot platform now
        (asyncObjects.map bytes) = .ok asyncLoaded ∧
      loaded.SameContent asyncLoaded := by
  have rooted := reachable_treeRooted started reached
  have writes := createObjects_writes rooted positive few readable.elementsShort order
  have asyncWrites := SnapTask.createObjects_writes rooted positive few readable.elementsShort
    platform asyncOrder
  rcases writes.loads rooted readable (fun _ => writes.fits positive short) platform now interval
    digest with ⟨objects, loaded, written, loads, restored, _⟩
  rcases asyncWrites.loads rooted readable (fun _ => asyncWrites.fits positive short) platform now
    interval digest with ⟨asyncObjects, asyncLoaded, asyncWritten, asyncLoads, asyncRestored, _⟩
  exact ⟨objects, asyncObjects, loaded, asyncLoaded, written, asyncWritten, loads, asyncLoads,
    restored.sameContent_both asyncRestored⟩

theorem snapshots_load_snapshotRun :
    ∃ store objects asyncObjects loaded asyncLoaded,
      ReachableBy (next .sample) (keepsTree .sample) sample store ∧
      (store.dataTree.lookup (ascii "/e")).isSome ∧
      store.createObjects .sample .sorted = some objects ∧
      (SnapTask.make .sample .sorted store).createObjects .sample .sorted = some asyncObjects ∧
      (new 500 []).loadLatestSnapshot .sample 0 (objects.map bytes) = .ok loaded ∧
      (new 500 []).loadLatestSnapshot .sample 0 (asyncObjects.map bytes) = .ok asyncLoaded ∧
      loaded.SameContent asyncLoaded := by
  simp only [exists_and_left]
  refine exists_reached_of (fun store => (store.dataTree.lookup (ascii "/e")).isSome ∧
    store.Readable ∧ store.elementsWithin 1000 = true ∧ store.dataTree.keys.card ≤ 10)
    snapshotRun (by decide) ?_
  rintro store reached ⟨created, readable, within, small⟩
  have few := objectCount_le SnapshotSettings.sample.maxObjectNodeSize store.dataTree.keys.card
  rcases snapshots_load started_sample reached readable positive_sample
    (batchesShort_of_elementsWithin within (by decide)) (by omega) .sorted .sorted 0 500 [] with
    ⟨objects, asyncObjects, loaded, asyncLoaded, written, asyncWritten, loads, asyncLoads, same⟩
  exact ⟨created, objects, written, asyncObjects, asyncWritten, loaded, loads, asyncLoaded,
    asyncLoads, same⟩

def removeConfigRun : List Call :=
  [.sampleSession, .sample 1 (.single (.remove { path := ascii "/zookeeper/config" }))]

/-- A client that removes the node for the configuration makes every later snapshot unreadable. -/
theorem removedConfig_not_loaded :
    ∃ store objects, ReachableBy (next .sample) (fun _ _ => True) sample store ∧
      store.createObjects .sample .sorted = some objects ∧
      ∀ loaded, (new 500 []).loadLatestSnapshot .sample 0 (objects.map bytes) ≠
        .ok loaded := by
  simp only [exists_and_left]
  refine exists_reached_of (fun store => ∃ objects, store.createObjects .sample .sorted =
    some objects ∧ (parseObjectsWithin (objects.map bytes)).toOption = none) removeConfigRun
    (by decide +kernel) ?_
  rintro store reached ⟨objects, written, fails⟩
  refine ⟨objects, written, fun loaded loads => ?_⟩
  rw [loadLatestSnapshot, parseObjects_eq_parseObjectsWithin] at loads
  cases parses : parseObjectsWithin (objects.map bytes) with
  | ok => simp [parses, Except.toOption] at fails
  | error =>
    rw [parses] at loads
    split at loads <;> cases loads

end KeeperStore

end RaftKeeper
