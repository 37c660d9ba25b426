import RaftKeeper.Snapshot.BatchSize
import RaftKeeper.Snapshot.RoundTrip

/-!
# Both writers make snapshots that restore the store

The objects of either writer are a `SnapshotOf` the store. A loaded store has everything that is
replicated, except for identities of a session that is not in the session table, and an index of
ephemeral nodes that differs from the owners of the nodes.
-/

namespace RaftKeeper

open KeeperStore List SnapTask

/-- A batch and an object may hold something. -/
structure SnapshotSettings.Positive (settings : SnapshotSettings) : Prop where
  saveBatchSize : 0 < settings.saveBatchSize
  maxObjectNodeSize : 0 < settings.maxObjectNodeSize

variable {store : KeeperStore} {nodes : List (Bytes × KeeperNode)} {settings : SnapshotSettings}

theorem exists_dataObjects (lists : store.dataTree.Lists nodes)
    (nonempty : store.dataTree.keys.card ≠ 0) (positive : settings.Positive)
    (few : objectCount settings.maxObjectNodeSize store.dataTree.keys.card + 3 < 2 ^ 31)
    {written : List (Bytes × KeeperNode)}
    (same : written.map serializeKeeperNode = nodes.map serializeKeeperNode) :
    ∃ dataObjects, (written.foldl (DataWriter.append settings) {}).finish = some dataObjects ∧
      dataObjects.length = objectCount settings.maxObjectNodeSize store.dataTree.keys.card ∧
      SnapshotOf store nodes dataObjects ∧
      ∀ object ∈ dataObjects, object.BatchesWithin settings.saveBatchSize := by
  have length : written.length = store.dataTree.keys.card := by
    rw [← lists.length_eq]
    simpa using congrArg length same
  have isWritten : written ≠ [] := by
    rintro rfl
    exact nonempty length.symm
  rcases (DataWriter.wrote_foldl positive.maxObjectNodeSize written).finish isWritten with
    ⟨dataObjects, finished, sound, elements, count⟩
  rw [length] at count
  rw [same] at elements
  exact ⟨dataObjects, finished, count, ⟨lists, sound, elements, by rwa [count]⟩,
    DataWriter.finish_within positive.saveBatchSize finished⟩

variable {dataObjects : List SnapshotObject}

theorem getBuffer_isSome_of_mem {α : Type} {type : SnapshotBatchType} {saveBatchSize : ℕ}
    {encode : α → Bytes} {values : List α}
    (fits : ∀ value ∈ values, (encode value).length ≤ nuraftBufferSize) :
    ∀ element ∈ (serializeElements type saveBatchSize (values.map encode)).elements,
      (getBuffer element).isSome := by
  rw [(serializeElements_spec type saveBatchSize (values.map encode)).2.1]
  intro element isElement
  rcases mem_map.mp isElement with ⟨value, isValue, rfl⟩
  simp [getBuffer, fits value isValue]

theorem numberObjects_snapshotObjects {order : SnapshotOrder}
    (snapshot : SnapshotOf store nodes dataObjects) (short : store.ElementsShort) :
    numberObjects (store.snapshotObjects settings order dataObjects) =
      some (store.snapshotObjects settings order dataObjects) := by
  refine if_pos ⟨snapshot.few, ?_⟩
  simp only [snapshotObjects, countedObjects, mem_cons, forall_eq_or_imp]
  refine ⟨getBuffer_isSome_of_mem fun entry isEntry => ?_,
    getBuffer_isSome_of_mem fun entry isEntry => short.sessions _ _
      (((order.sessions.lists_entries () _).mem_iff _ _).mp isEntry),
    getBuffer_isSome_of_mem fun entry isEntry => short.acls _ _
      (((order.acls.lists_entries () _).mem_iff _ _).mp isEntry), fun object isObject => ?_⟩
  · have key := length_le_of_lookup_countersMap
      (((order.intMap.lists_entries () _).mem_iff _ _).mp isEntry)
    simp only [nuraftBufferSize, serializeIntEntry, writeString, writeInt32, writeInt64,
      length_append, length_bigEndian]
    omega
  · intro element isElement
    have isNode := mem_flatMap.mpr ⟨object, isObject, isElement⟩
    rw [snapshot.elements] at isNode
    rcases mem_map.mp isNode with ⟨entry, isEntry, rfl⟩
    simp [getBuffer, short.nodes _ _ ((snapshot.lists.mem_iff _ _).mp isEntry)]

/-- The objects of a snapshot of the store, with at most `saveBatchSize` nodes in a batch. -/
def KeeperStore.Writes (settings : SnapshotSettings) (order : SnapshotOrder) (store : KeeperStore)
    (written : Option (List SnapshotObject)) : Prop :=
  ∃ nodes dataObjects, SnapshotOf store nodes dataObjects ∧
    (∀ object ∈ dataObjects, object.BatchesWithin settings.saveBatchSize) ∧
    written = some (store.snapshotObjects settings order dataObjects)

section

variable {store : KeeperStore} (rooted : TreeRooted store.dataTree)
  {settings : SnapshotSettings} (positive : settings.Positive)
  (few : objectCount settings.maxObjectNodeSize store.dataTree.keys.card + 3 < 2 ^ 31)
  (elementsShort : store.ElementsShort)

include rooted in
theorem TreeRooted.card_keys_ne_zero : store.dataTree.keys.card ≠ 0 := by
  rcases rooted.root with ⟨root, found, _⟩
  have present := Finmap.mem_keys.mpr (Finmap.mem_of_lookup_eq_some found)
  exact Finset.card_ne_zero_of_mem present

include rooted positive few elementsShort in
theorem KeeperStore.createObjects_writes (order : SnapshotOrder) :
    store.Writes settings order (store.createObjects settings order) := by
  have nonempty := rooted.card_keys_ne_zero
  rcases rooted.serializeDataTree_lists settings order with ⟨nodes, lists, walked⟩
  rcases exists_dataObjects lists nonempty positive few rfl with
    ⟨dataObjects, finished, count, snapshot, within⟩
  refine ⟨nodes, dataObjects, snapshot, within, ?_⟩
  rw [createObjects, if_neg nonempty, walked, finished, Option.bind_some,
    ← numberObjects_snapshotObjects snapshot elementsShort, snapshotObjects, countedObjects, count]
  rfl

include rooted positive few elementsShort in
theorem SnapTask.createObjects_writes (platform : Platform) (order : SnapshotOrder) :
    store.Writes settings order
      ((make platform order store).createObjects settings order) := by
  have nonempty := rooted.card_keys_ne_zero
  rcases dumpDataTree_lists platform order store.dataTree with ⟨nodes, lists, dumped⟩
  have same : (dumpDataTree platform order store.dataTree).map serializeKeeperNode =
      nodes.map serializeKeeperNode := by
    rw [dumped, map_map]
    rfl
  rcases exists_dataObjects lists nonempty positive few same with
    ⟨dataObjects, finished, count, snapshot, within⟩
  refine ⟨nodes, dataObjects, snapshot, within, ?_⟩
  rw [createObjects, make, if_neg nonempty, serializeDataTreeAsync, finished,
    Option.bind_some, ← numberObjects_snapshotObjects snapshot elementsShort, snapshotObjects,
    countedObjects, count, objectCount_eq_ceil positive.maxObjectNodeSize]

end

/-- Any `saveBatchSize` nodes, sessions or lists of the store are short together. -/
structure KeeperStore.BatchesShort (settings : SnapshotSettings) (store : KeeperStore) : Prop where
  nodes : ChunksShort store.dataTree serializeKeeperNode settings.saveBatchSize
  sessions : ChunksShort store.sessionManager.sessionAndTimeout
    (serializeSession store.sessionAndAuth) settings.saveBatchSize
  acls : ChunksShort store.aclMap.numToAcl serializeAcl settings.saveBatchSize

theorem ChunksShort.serializeElements_fits {α β : Type} [DecidableEq α] {map : Dict α β}
    {encode : α × β → Bytes} {saveBatchSize : ℕ} (short : ChunksShort map encode saveBatchSize)
    (positive : 0 < saveBatchSize) (type : SnapshotBatchType) {entries : List (α × β)}
    (lists : map.Lists entries) :
    ∀ batch ∈ (serializeElements type saveBatchSize (entries.map encode)).batches, batch.Fits := by
  rcases serializeElements_spec type saveBatchSize (entries.map encode) with ⟨_, elements, _⟩
  refine short.fits lists [_] ?_ ?_ _ (mem_singleton_self _)
  · rw [flatMap_singleton, elements]
  · intro object isObject
    rw [mem_singleton.mp isObject]
    exact serializeElements_batchesWithin positive type _

theorem chunksShort_countersMap (zxid sessionIdCounter : Int64) (objectCount size : ℕ) :
    ChunksShort (countersMap zxid sessionIdCounter objectCount) serializeIntEntry size := by
  intro chunk nodup entries _
  have subset : chunk.map Prod.fst ⊆ [ascii "OBJECTCOUNT", ascii "SESSIONID", ascii "ZXID"] := by
    intro key isKey
    rcases mem_map.mp isKey with ⟨entry, isEntry, rfl⟩
    have found := entries entry isEntry
    rw [lookup_countersMap] at found
    simp only [mem_cons, not_mem_nil, or_false]
    by_contra other
    simp only [not_or] at other
    rw [if_neg other.1, if_neg other.2.1, if_neg other.2.2] at found
    cases found
  have few := (nodup.subperm subset).length_le
  rw [length_map] at few
  refine lt_of_le_of_lt (SnapshotBatchBody.bodyLength_le 3 23 ?_ ?_) (by decide)
  · rw [length_map]
    exact few
  · intro element isElement
    rcases mem_map.mp isElement with ⟨entry, isEntry, rfl⟩
    have short := length_le_of_lookup_countersMap (entries entry isEntry)
    simp only [serializeIntEntry, writeString, writeInt32, writeInt64, length_append,
      length_bigEndian]
    omega

theorem SnapshotOf.fits (snapshot : SnapshotOf store nodes dataObjects)
    (positive : settings.Positive)
    (within : ∀ object ∈ dataObjects, object.BatchesWithin settings.saveBatchSize)
    (short : store.BatchesShort settings) (order : SnapshotOrder) :
    ∀ object ∈ store.snapshotObjects settings order dataObjects,
      ∀ batch ∈ object.batches, batch.Fits := by
  simp only [snapshotObjects, countedObjects, mem_cons, forall_eq_or_imp]
  refine ⟨?_, ?_, ?_, short.nodes.fits snapshot.lists _ snapshot.elements within⟩
  · exact (chunksShort_countersMap _ _ _ _).serializeElements_fits positive.saveBatchSize _
      (order.intMap.lists_entries () _)
  · exact short.sessions.serializeElements_fits positive.saveBatchSize _
      (order.sessions.lists_entries () _)
  · exact short.acls.serializeElements_fits positive.saveBatchSize _
      (order.acls.lists_entries () _)

variable {order : SnapshotOrder} {written : Option (List SnapshotObject)}

theorem KeeperStore.Writes.fits (writes : store.Writes settings order written)
    (positive : settings.Positive) (short : store.BatchesShort settings)
    {objects : List SnapshotObject} (isWritten : written = some objects) :
    ∀ object ∈ objects, ∀ batch ∈ object.batches, batch.Fits := by
  rcases writes with ⟨nodes, dataObjects, snapshot, within, same⟩
  cases isWritten.symm.trans same
  exact snapshot.fits positive within short order

theorem KeeperStore.Writes.loads (writes : store.Writes settings order written)
    (rooted : TreeRooted store.dataTree) (readable : store.Readable)
    (fits : ∀ objects, written = some objects →
      ∀ object ∈ objects, ∀ batch ∈ object.batches, batch.Fits)
    (platform : Platform) (now interval : Int64) (digest : Bytes) :
    ∃ objects loaded, written = some objects ∧
      (new interval digest).loadLatestSnapshot platform now
        (objects.map SnapshotObject.bytes) = .ok loaded ∧
      loaded.RestoredFrom store ∧ loaded.superDigest = digest := by
  rcases writes with ⟨nodes, dataObjects, snapshot, _, isWritten⟩
  rcases snapshot.loads rooted readable (fits _ isWritten) platform now interval digest with
    ⟨loaded, loads, restored⟩
  exact ⟨_, loaded, isWritten, loads, restored⟩

/-- Two stores with the same tree, sessions, identities, access control lists and counters. -/
structure KeeperStore.SameContent (left right : KeeperStore) : Prop where
  dataTree : left.dataTree = right.dataTree
  ephemerals : ∀ session,
    ephemeralsOf left.ephemerals session = ephemeralsOf right.ephemerals session
  sessionAndTimeout : left.sessionManager.sessionAndTimeout = right.sessionManager.sessionAndTimeout
  auths : ∀ session, left.authsOf session = right.authsOf session
  numToAcl : left.aclMap.numToAcl = right.aclMap.numToAcl
  zxid : left.zxid = right.zxid
  sessionIdCounter : left.sessionManager.sessionIdCounter = right.sessionManager.sessionIdCounter

/-- The index of ephemeral nodes is that of the owners in the tree. -/
structure KeeperStore.OwnersIndexed (store : KeeperStore) : Prop where
  listed : ∀ path node, store.dataTree.lookup path = some node → node.stat.ephemeralOwner ≠ 0 →
    path ∈ ephemeralsOf store.ephemerals node.stat.ephemeralOwner
  owned : ∀ session paths, store.ephemerals.lookup session = some paths → ∀ path ∈ paths,
    session ≠ 0 ∧ (store.dataTree.lookup path).any (·.stat.ephemeralOwner = session) = true

theorem KeeperStore.OwnersIndexed.owner (owners : store.OwnersIndexed) {session : Int64}
    {path : Bytes} (listed : path ∈ ephemeralsOf store.ephemerals session) :
    session ≠ 0 ∧ ∃ node, store.dataTree.lookup path = some node ∧
      node.stat.ephemeralOwner = session := by
  cases found : store.ephemerals.lookup session with
  | none => simp [ephemeralsOf, found] at listed
  | some paths =>
    rw [ephemeralsOf, found, Option.getD_some] at listed
    rcases owners.owned session paths found path listed with ⟨nonzero, owned⟩
    rcases (Option.any_eq_true_iff_get _ _).mp owned with ⟨present, isOwner⟩
    exact ⟨nonzero, _, (Option.some_get present).symm, of_decide_eq_true isOwner⟩

theorem ACLMap.numToAcl_foldl_countNode (nodes : List (Bytes × KeeperNode)) (table : ACLMap) :
    (nodes.foldl countNode table).numToAcl = table.numToAcl := by
  induction nodes generalizing table with
  | nil => rfl
  | cons entry rest ih =>
    rw [foldl_cons, ih, countNode, addUsage]
    split <;> rfl

theorem ACLMap.numToAcl_foldl_addMapping (acls : List (ℕ × ACLs)) (table : ACLMap) :
    (acls.foldl (fun current entry => current.addMapping entry.1 entry.2) table).numToAcl =
      table.numToAcl.insertAll acls := by
  induction acls generalizing table with
  | nil => rfl
  | cons entry rest ih => exact ih _

namespace KeeperStore.RestoredFrom

variable {store left right : KeeperStore}

theorem numToAcl (restored : left.RestoredFrom store) :
    left.aclMap.numToAcl = store.aclMap.numToAcl := by
  rcases restored.aclMap with ⟨nodes, acls, _, lists, same⟩
  rw [same, ACLMap.numToAcl_foldl_countNode, ACLMap.numToAcl_foldl_addMapping]
  exact lists.insertAll_empty

theorem authsOf (restored : left.RestoredFrom store) (session : Int64) :
    left.authsOf session =
      if session ∈ store.sessionManager.sessionAndTimeout then store.authsOf session else [] := by
  rw [StoreState.authsOf, restored.auths]
  by_cases present : session ∈ store.sessionManager.sessionAndTimeout
  · by_cases anonymous : store.authsOf session = []
    · simp [present, anonymous]
    · simp [present, anonymous]
  · simp [present]

theorem sameContent_both (first : left.RestoredFrom store) (second : right.RestoredFrom store) :
    left.SameContent right where
  dataTree := first.dataTree.trans second.dataTree.symm
  ephemerals session := by
    ext path
    rw [first.ephemerals, second.ephemerals]
  sessionAndTimeout := first.sessionAndTimeout.trans second.sessionAndTimeout.symm
  auths session := by rw [first.authsOf, second.authsOf]
  numToAcl := first.numToAcl.trans second.numToAcl.symm
  zxid := first.zxid.trans second.zxid.symm
  sessionIdCounter := first.sessionIdCounter.trans second.sessionIdCounter.symm

theorem sameContent (restored : left.RestoredFrom store) (owners : store.OwnersIndexed)
    (identified : ∀ session, store.authsOf session ≠ [] →
      session ∈ store.sessionManager.sessionAndTimeout) :
    left.SameContent store where
  dataTree := restored.dataTree
  ephemerals session := by
    ext path
    rw [restored.ephemerals]
    constructor
    · rintro ⟨nonzero, node, found, rfl⟩
      exact owners.listed _ _ found nonzero
    · exact owners.owner
  sessionAndTimeout := restored.sessionAndTimeout
  auths session := by
    rw [restored.authsOf]
    split
    · rfl
    · rename_i absent
      exact (Decidable.not_not.mp (mt (identified session) absent)).symm
  numToAcl := restored.numToAcl
  zxid := restored.zxid
  sessionIdCounter := restored.sessionIdCounter

end KeeperStore.RestoredFrom

end RaftKeeper
