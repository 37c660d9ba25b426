import RaftKeeper.Snapshot.Build
import RaftKeeper.Snapshot.Parse
import RaftKeeper.Snapshot.Walk

/-!
# The round trip of a snapshot

Loading the objects that a writer has produced gives the store back. `SnapshotOf` is what both
writers have in common: three objects before the nodes, and objects in which every node occurs once.
`RestoredFrom` says what the loaded store has in common with the written one. The loader refuses a
string or a list of more than 2^28 elements, the number 2^64 - 1 of an access control list and a
negative number of children.
-/

namespace RaftKeeper

open Finmap List SnapshotObject

/-- The store is within the limits of the format. -/
structure KeeperStore.Readable (store : KeeperStore) : Prop where
  nodes : ∀ path node, store.dataTree.lookup path = some node → node.Readable path
  auths : ∀ session timeoutMs,
    store.sessionManager.sessionAndTimeout.lookup session = some timeoutMs →
      AuthIDs.Readable (store.authsOf session) ∧
      (serializeSession store.sessionAndAuth (session, timeoutMs)).length ≤ nuraftBufferSize
  acls : ∀ number acls, store.aclMap.numToAcl.lookup number = some acls →
    number < 2 ^ 64 ∧ acls.Readable ∧ (serializeAcl (number, acls)).length ≤ nuraftBufferSize

/-- The objects hold the nodes of the store. -/
structure SnapshotOf (store : KeeperStore) (nodes : List (Bytes × KeeperNode))
    (dataObjects : List SnapshotObject) : Prop where
  lists : store.dataTree.Lists nodes
  sound : ∀ object ∈ dataObjects, object.Sound .data ∧ object.batches ≠ []
  elements : dataObjects.flatMap elements = nodes.map serializeKeeperNode
  few : dataObjects.length + 3 < 2 ^ 31

/-- The objects of a snapshot, with any number of objects among the counters. -/
def KeeperStore.countedObjects (settings : SnapshotSettings) (order : SnapshotOrder)
    (store : KeeperStore) (count : ℕ) (dataObjects : List SnapshotObject) : List SnapshotObject :=
  serializeMap settings order
      (countersMap store.zxid store.sessionManager.sessionIdCounter count) ::
    serializeSessions settings order store.sessionManager.sessionAndTimeout store.sessionAndAuth ::
    serializeAcls settings order store.aclMap.numToAcl :: dataObjects

/-- The counters say how many objects there are. -/
def KeeperStore.snapshotObjects (settings : SnapshotSettings) (order : SnapshotOrder)
    (store : KeeperStore) (dataObjects : List SnapshotObject) : List SnapshotObject :=
  store.countedObjects settings order (dataObjects.length + 3) dataObjects

/-- What a loaded store has of the one that was written. -/
structure KeeperStore.RestoredFrom (loaded store : KeeperStore) : Prop where
  dataTree : loaded.dataTree = store.dataTree
  ephemerals : ∀ session path, path ∈ ephemeralsOf loaded.ephemerals session ↔
    session ≠ 0 ∧ ∃ node, store.dataTree.lookup path = some node ∧
      node.stat.ephemeralOwner = session
  auths : ∀ session, loaded.sessionAndAuth.lookup session =
    if session ∈ store.sessionManager.sessionAndTimeout ∧ store.authsOf session ≠ [] then
      some (store.authsOf session)
    else none
  sessionAndTimeout :
    loaded.sessionManager.sessionAndTimeout = store.sessionManager.sessionAndTimeout
  aclMap : ∃ nodes acls, store.dataTree.Lists nodes ∧ store.aclMap.numToAcl.Lists acls ∧
    loaded.aclMap = nodes.foldl ACLMap.countNode
      (acls.foldl (fun table entry => table.addMapping entry.1 entry.2) {})
  zxid : loaded.zxid = store.zxid
  sessionIdCounter : loaded.sessionManager.sessionIdCounter = store.sessionManager.sessionIdCounter
  indexed : loaded.sessionManager.sessionExpiryQueue.Indexed

/-- Each element that is written of the store fits into a buffer. -/
structure KeeperStore.ElementsShort (store : KeeperStore) : Prop where
  nodes : ∀ path node, store.dataTree.lookup path = some node →
    (serializeKeeperNode (path, node)).length ≤ nuraftBufferSize
  sessions : ∀ session timeoutMs,
    store.sessionManager.sessionAndTimeout.lookup session = some timeoutMs →
      (serializeSession store.sessionAndAuth (session, timeoutMs)).length ≤ nuraftBufferSize
  acls : ∀ number acls, store.aclMap.numToAcl.lookup number = some acls →
    (serializeAcl (number, acls)).length ≤ nuraftBufferSize

variable {store : KeeperStore}

theorem KeeperStore.Readable.elementsShort (readable : store.Readable) : store.ElementsShort where
  nodes path node found := length_serializeKeeperNode (readable.nodes path node found).path
    (readable.nodes path node found).data
  sessions session timeoutMs found := (readable.auths session timeoutMs found).2
  acls number acls found := (readable.acls number acls found).2.2

theorem lt_of_le_nuraftBufferSize {size : ℕ} (fits : size ≤ nuraftBufferSize) : size < 2 ^ 31 :=
  fits.trans_lt (by decide)

theorem serializeElements_batchesOf {α : Type} (type : SnapshotBatchType) (saveBatchSize : ℕ)
    (encode : α → Bytes) (values : List α) :
    BatchesOf type encode values
      (serializeElements type saveBatchSize (values.map encode)).batches := by
  rcases serializeElements_spec type saveBatchSize (values.map encode) with ⟨sound, elements, _⟩
  exact ⟨sound.types, elements⟩

theorem lookup_countersMap (zxid sessionIdCounter : Int64) (objectCount : ℕ) (key : Bytes) :
    (countersMap zxid sessionIdCounter objectCount).lookup key =
      if key = ascii "OBJECTCOUNT" then some (Int64.ofNat objectCount)
      else if key = ascii "SESSIONID" then some sessionIdCounter
      else if key = ascii "ZXID" then some zxid
      else none := by
  rw [countersMap, lookup_insert_ite, lookup_insert_ite, lookup_insert_ite, lookup_empty]

variable {objectCount : ℕ} {zxid sessionIdCounter : Int64}

theorem length_le_of_lookup_countersMap {key : Bytes} {value : Int64}
    (found : (countersMap zxid sessionIdCounter objectCount).lookup key = some value) :
    key.length ≤ 11 := by
  rw [lookup_countersMap] at found
  split_ifs at found with same same same <;> rw [same] <;> decide

theorem parseBatches_serializeMap (settings : SnapshotSettings) (order : SnapshotOrder)
    {map : Dict Bytes Int64} (keys : ∀ key value, map.lookup key = some value → key.length ≤ 11) :
    ∃ maps : List (Dict Bytes Int64),
      parseBatches .v2 (serializeMap settings order map).batches = .ok (maps.map .intMap) ∧
      (∀ part ∈ maps, ∀ key value, part.lookup key = some value → map.lookup key = some value) ∧
      ∀ key value, map.lookup key = some value → ∃ part ∈ maps, (part.lookup key).isSome := by
  have lists := order.intMap.lists_entries () map
  rcases (serializeElements_batchesOf .uintMap settings.saveBatchSize serializeIntEntry
    (order.intMap.entries () map)).parse_intMap fun entry isEntry =>
      le_trans (keys entry.1 entry.2 ((lists.mem_iff _ _).mp isEntry)) (by decide) with
    ⟨groups, flat, parsed⟩
  refine ⟨groups.map intMapOf, by rw [map_map]; exact parsed, ?_, ?_⟩
  · intro part isPart key value found
    rcases mem_map.mp isPart with ⟨group, isGroup, rfl⟩
    rw [← lists.mem_iff, ← flat]
    exact mem_flatten.mpr ⟨group, isGroup, mem_of_lookup_intMapOf found⟩
  · intro key value found
    rw [← lists.mem_iff, ← flat] at found
    rcases mem_flatten.mp found with ⟨group, isGroup, isEntry⟩
    exact ⟨_, mem_map_of_mem isGroup, isSome_lookup_intMapOf isEntry⟩

variable {loading : Loading} {maps : List (Dict Bytes Int64)}

theorem Loading.apply_counters (uncounted : loading.loadedObjectsCount = none)
    (parts : ∀ part ∈ maps, ∀ key value, part.lookup key = some value →
      (countersMap zxid sessionIdCounter objectCount).lookup key = some value)
    (whole : ∀ key value, (countersMap zxid sessionIdCounter objectCount).lookup key = some value →
      ∃ part ∈ maps, (part.lookup key).isSome) :
    ∃ loadedCount : Option UInt32,
      (∀ found, loadedCount = some found → found = (Int64.ofNat objectCount).toUInt64.toUInt32) ∧
      maps.foldl setCounters loading =
        { loading with
          store := { loading.store with
            zxid := zxid
            sessionManager := { loading.store.sessionManager with
              sessionIdCounter := sessionIdCounter } }
          loadedObjectsCount := loadedCount } := by
  have agreed : ∀ {key : Bytes} {value : Int64},
      (countersMap zxid sessionIdCounter objectCount).lookup key = some value →
        ∀ part ∈ maps, ∀ found, part.lookup key = some found → found = value := by
    intro key value isValue part isPart found isFound
    exact Option.some.inj ((parts part isPart _ _ isFound).symm.trans isValue)
  have zxidFound := lookup_countersMap zxid sessionIdCounter objectCount (ascii "ZXID")
  have counterFound := lookup_countersMap zxid sessionIdCounter objectCount (ascii "SESSIONID")
  refine ⟨_, fun found => loadedObjectsCount_foldl uncounted
    (agreed (lookup_countersMap zxid sessionIdCounter objectCount (ascii "OBJECTCOUNT"))), ?_⟩
  rw [foldl_setCounters, foldl_counterOf (agreed zxidFound) (.inr (whole _ _ zxidFound)),
    foldl_counterOf (agreed counterFound) (.inr (whole _ _ counterFound))]

variable {nodes : List (Bytes × KeeperNode)} {tree : DataTree}

theorem TreeRooted.namesOf_edgesOf (rooted : TreeRooted tree) (lists : tree.Lists nodes)
    {path : Bytes} {node : KeeperNode} (found : tree.lookup path = some node) :
    namesOf (edgesOf nodes) path = node.children := by
  ext name
  rw [mem_namesOf, edgesOf, mem_map]
  constructor
  · rintro ⟨⟨other, otherNode⟩, isMember, same⟩
    rcases mem_filter.mp isMember with ⟨isEntry, notRoot⟩
    rcases rooted.parent ((lists.mem_iff _ _).mp isEntry) (of_decide_eq_true notRoot) with
      ⟨parent, foundParent, listed⟩
    rw [Prod.mk.injEq] at same
    rw [same.1, found] at foundParent
    cases foundParent
    rwa [same.2] at listed
  · intro listed
    rcases rooted.listed_child found listed with ⟨⟨child, foundChild⟩, parent, base, longer⟩
    refine ⟨(childPath path name, child), mem_filter.mpr
      ⟨(lists.mem_iff _ _).mpr foundChild, decide_eq_true ?_⟩, by rw [parent, base]⟩
    intro (isRoot : childPath path name = rootPath)
    rw [isRoot, getParentPath_rootPath] at parent
    rw [isRoot, ← parent] at longer
    exact lt_irrefl _ longer

theorem TreeRooted.builtNode_eq {source start : DataTree} (rooted : TreeRooted tree)
    (lists : tree.Lists nodes)
    (stripped : ∀ path, source.lookup path = (tree.lookup path).map (·.cloneWithoutChildren))
    (onlyRoot : ∀ path, path ≠ rootPath → start.lookup path = none) (path : Bytes) :
    builtNode source start (edgesOf nodes) path = tree.lookup path := by
  rw [builtNode, stripped]
  cases found : tree.lookup path with
  | none =>
    have notRoot : path ≠ rootPath := by
      rintro rfl
      rcases rooted.root with ⟨root, rootFound, _⟩
      rw [found] at rootFound
      cases rootFound
    rw [onlyRoot path notRoot]
    rfl
  | some node =>
    rw [rooted.namesOf_edgesOf lists found]
    simp [KeeperNode.withChildren, KeeperNode.cloneWithoutChildren]

theorem toUInt32_ofNat {count : ℕ} (few : count < 2 ^ 31) :
    (Int64.ofNat count).toUInt64.toUInt32.toNat = count := by
  have same : (Int64.ofNat count).toUInt64 = UInt64.ofNat count := rfl
  rw [same, UInt64.toNat_toUInt32, UInt64.toNat_ofNat']
  omega

theorem TreeRooted.buildDataTree (rooted : TreeRooted tree) (lists : tree.Lists nodes)
    (platform : Platform)
    (loadedNodes : loading.nodes = nodes.map fun entry => (entry.1, entry.2.cloneWithoutChildren))
    (loadedEdges : loading.edges = edgesOf loading.nodes)
    (fresh : loading.store.dataTree = singleton rootPath {}) :
    loading.buildDataTree platform = .ok { loading.store with dataTree := tree } := by
  rcases lists.mapValues KeeperNode.cloneWithoutChildren with ⟨source, sourceLists, stripped⟩
  rw [← loadedNodes] at sourceLists
  have sameEdges : edgesOf loading.nodes = edgesOf nodes := by
    rw [loadedNodes, edgesOf, edgesOf, filter_map, map_map]
    rfl
  have onlyRoot : ∀ path, path ≠ rootPath → loading.store.dataTree.lookup path = none := by
    intro path notRoot
    rw [fresh]
    exact lookup_eq_none.mpr (by simpa using notRoot)
  have built : ∀ path, builtNode source loading.store.dataTree loading.edges path =
      tree.lookup path := by
    intro path
    rw [loadedEdges, sameEdges]
    exact rooted.builtNode_eq lists stripped onlyRoot path
  have parents : ∀ edge ∈ loading.edges,
      (builtNode source loading.store.dataTree loading.edges edge.1).isSome := by
    intro edge isEdge
    rw [built]
    rw [loadedEdges, sameEdges] at isEdge
    rcases mem_map.mp isEdge with ⟨entry, isMember, rfl⟩
    rcases mem_filter.mp isMember with ⟨isEntry, notRoot⟩
    rcases rooted.parent ((lists.mem_iff _ _).mp isEntry) (of_decide_eq_true notRoot) with
      ⟨parent, foundParent, _⟩
    rw [foundParent]
    rfl
  rcases @buildBuckets_spec platform _ _ _ loading.store.dataTree sourceLists onlyRoot parents _
    (nodup_range (n := dataTreeBucketNum)) fun _ _ => rfl with ⟨result, builds, lookups⟩
  have same : result = tree := by
    apply ext_lookup
    intro path
    have inRange : platform.getBucketIndex path ∈ range dataTreeBucketNum :=
      mem_range.mpr (Nat.mod_lt _ (by decide))
    rw [lookups, if_pos inRange, built]
  rw [Loading.buildDataTree, builds, same]
  rfl

def snapshotActions (maps : List (Dict Bytes Int64)) (auths : Int64 → AuthIDs)
    (sessions : List (Int64 × Int64)) (acls : List (ℕ × ACLs))
    (nodes : List (Bytes × KeeperNode)) : List LoadAction :=
  maps.map .intMap ++ (sessions.map (fun entry => .session entry.1 entry.2 (auths entry.1)) ++
    (acls.map (fun entry => .acl entry.1 entry.2) ++ nodes.map fun entry => .node entry.1 entry.2))

/-- What the loader takes: a list that is too long, or a negative number of children, it
refuses. -/
structure KeeperStore.Accepted (store : KeeperStore) (nodes : List (Bytes × KeeperNode)) :
    Prop where
  auths : ∀ session timeoutMs,
    store.sessionManager.sessionAndTimeout.lookup session = some timeoutMs →
      AuthIDs.Readable (store.authsOf session)
  acls : ∀ number acls, store.aclMap.numToAcl.lookup number = some acls → acls.Readable
  nodes : ∀ entry ∈ nodes, entry.1.length ≤ maxStringOrArraySize ∧
    entry.2.data.length ≤ maxStringOrArraySize ∧ ¬ entry.2.stat.numChildren < 0

variable {now : Int64}

theorem Loading.foldlM_append_ok {actions more : List LoadAction} {start middle : Loading}
    (first : actions.foldlM (LoadAction.apply now) start = .ok middle) :
    (actions ++ more).foldlM (LoadAction.apply now) start =
      more.foldlM (LoadAction.apply now) middle := by
  rw [foldlM_append, first]
  rfl

/-- The store `start` after the actions of a snapshot of `store`. -/
def KeeperStore.restoredOnto (store start : KeeperStore) (sessions : List (Int64 × Int64))
    (acls : List (ℕ × ACLs)) (nodes : List (Bytes × KeeperNode)) (queue : SessionExpiryQueue) :
    KeeperStore :=
  { start with
    aclMap := nodes.foldl ACLMap.countNode
      (acls.foldl (fun table entry => table.addMapping entry.1 entry.2) start.aclMap)
    ephemerals := nodes.foldl addOwned start.ephemerals
    sessionAndAuth := sessions.foldl (Loading.addAuths store.authsOf) start.sessionAndAuth
    zxid := store.zxid
    sessionManager :=
      { sessionAndTimeout := sessions.foldl
          (fun timeouts entry => SessionManager.emplaceTimeout timeouts entry.1 entry.2)
          start.sessionManager.sessionAndTimeout
        sessionExpiryQueue := queue
        sessionIdCounter := store.sessionManager.sessionIdCounter } }

theorem Loading.apply_snapshot (now : Int64) (sessions : List (Int64 × Int64))
    (acls : List (ℕ × ACLs)) (nodes : List (Bytes × KeeperNode)) {start : KeeperStore}
    (indexed : start.sessionManager.sessionExpiryQueue.Indexed)
    (parts : ∀ part ∈ maps, ∀ key value, part.lookup key = some value →
      (countersMap store.zxid store.sessionManager.sessionIdCounter objectCount).lookup key =
        some value)
    (whole : ∀ key value, (countersMap store.zxid store.sessionManager.sessionIdCounter
      objectCount).lookup key = some value → ∃ part ∈ maps, (part.lookup key).isSome) :
    ∃ (loaded : Loading) (queue : SessionExpiryQueue),
      (snapshotActions maps store.authsOf sessions acls nodes).foldlM (LoadAction.apply now)
        { store := start } = .ok loaded ∧
      loaded.nodes = nodes ∧ loaded.edges = edgesOf nodes ∧
      (∀ found, loaded.loadedObjectsCount = some found →
        found = (Int64.ofNat objectCount).toUInt64.toUInt32) ∧
      queue.Indexed ∧ loaded.store = store.restoredOnto start sessions acls nodes queue := by
  rcases @apply_counters _ _ _ { store := start } _ rfl parts whole with
    ⟨loadedCount, counted, counters⟩
  have counts := apply_intMaps now maps { store := start }
  rcases apply_sessions now store.authsOf sessions (maps.foldl setCounters { store := start })
    (by rw [counters]; exact indexed) with ⟨queue, keeps, applied⟩
  rw [counters] at counts applied
  exact ⟨_, queue, (foldlM_append_ok counts).trans ((foldlM_append_ok applied).trans
    ((foldlM_append_ok (apply_acls now acls _)).trans (apply_nodes now nodes _))),
    nil_append _, nil_append _, counted, keeps, rfl⟩

theorem Loading.finish_eq {objects : ℕ} (platform : Platform)
    (counted : ∀ found, loading.loadedObjectsCount = some found → found.toNat = objects) :
    loading.finish platform objects = loading.buildDataTree platform := by
  rw [Loading.finish]
  split
  · rename_i count isFound
    rw [if_neg (not_not_intro (counted count isFound))]
  · rfl

theorem indexed_new (interval : Int64) (digest : Bytes) :
    (KeeperStore.new interval digest).sessionManager.sessionExpiryQueue.Indexed := by
  intro session time found
  cases found

/-- The lists as they are read back: their numbers are written as 64 bits. -/
def KeeperStore.rereadAcls (order : SnapshotOrder) (store : KeeperStore) : List (ℕ × ACLs) :=
  (order.acls.entries () store.aclMap.numToAcl).map fun entry => (entry.1 % 2 ^ 64, entry.2)

section

variable {store : KeeperStore} {settings : SnapshotSettings} {order : SnapshotOrder}
  {nodes : List (Bytes × KeeperNode)} {dataObjects : List SnapshotObject} {count : ℕ}
  (sound : ∀ object ∈ dataObjects, object.Sound .data ∧ object.batches ≠ [])
  (elements : dataObjects.flatMap elements = nodes.map serializeKeeperNode)
  (ofTree : ∀ entry ∈ nodes, store.dataTree.lookup entry.1 = some entry.2)
  (elementsShort : store.ElementsShort)
  (fits : ∀ object ∈ store.countedObjects settings order count dataObjects,
    ∀ batch ∈ object.batches, batch.Fits)

include sound elements in
theorem batchesOf_dataObjects :
    BatchesOf .data serializeKeeperNode nodes (dataObjects.flatMap batches) := by
  refine ⟨fun batch isBatch => ?_, by rw [flatMap_assoc]; exact elements⟩
  rcases mem_flatMap.mp isBatch with ⟨object, isObject, inObject⟩
  exact (sound object isObject).1.types batch inObject

include sound elements ofTree elementsShort fits

theorem KeeperStore.parseObjects_countedObjects_eq :
    parseObjects ((store.countedObjects settings order count dataObjects).map bytes) =
      parseBatches .v2
        ((store.countedObjects settings order count dataObjects).flatMap batches) := by
  simp only [countedObjects, mem_cons, forall_eq_or_imp] at fits
  rcases fits with ⟨mapFits, sessionFits, aclFits, nodeFits⟩
  have closed : ∀ type elements, (∃ type', (serializeElements type settings.saveBatchSize
      elements).Sound type') ∧ (serializeElements type settings.saveBatchSize
      elements).batches ≠ [] := by
    intro type elements
    rcases serializeElements_spec type settings.saveBatchSize elements with ⟨sound, _, nonempty⟩
    exact ⟨⟨_, sound⟩, nonempty⟩
  apply parseObjects_bytes
  · simp only [countedObjects, mem_cons, forall_eq_or_imp]
    exact ⟨closed _ _, closed _ _, closed _ _, fun object isObject =>
      ⟨⟨_, (sound object isObject).1⟩, (sound object isObject).2⟩⟩
  · simp only [countedObjects, mem_cons, forall_eq_or_imp]
    refine ⟨(serializeElements_batchesOf _ _ _ _).short mapFits fun entry isEntry => ?_,
      (serializeElements_batchesOf _ _ _ _).short sessionFits fun entry isEntry => ?_,
      (serializeElements_batchesOf _ _ _ _).short aclFits fun entry isEntry => ?_,
      fun object isObject batch inObject => ?_⟩
    · have key := length_le_of_lookup_countersMap
        (((order.intMap.lists_entries () _).mem_iff _ _).mp isEntry)
      simp only [serializeIntEntry, writeString, writeInt32, writeInt64, length_append,
        length_bigEndian]
      omega
    · exact lt_of_le_nuraftBufferSize
        (elementsShort.sessions _ _ (((order.sessions.lists_entries () _).mem_iff _ _).mp isEntry))
    · exact lt_of_le_nuraftBufferSize
        (elementsShort.acls _ _ (((order.acls.lists_entries () _).mem_iff _ _).mp isEntry))
    · refine (batchesOf_dataObjects sound elements).short (fun other isOther => ?_)
        (fun entry isEntry => lt_of_le_nuraftBufferSize
          (elementsShort.nodes _ _ (ofTree entry isEntry))) batch
        (mem_flatMap.mpr ⟨object, isObject, inObject⟩)
      rcases mem_flatMap.mp isOther with ⟨object, isObject, inObject⟩
      exact nodeFits object isObject other inObject

theorem KeeperStore.parseObjects_countedObjects :
    ∃ maps : List (Dict Bytes Int64),
      (∀ part ∈ maps, ∀ key value, part.lookup key = some value →
        (countersMap store.zxid store.sessionManager.sessionIdCounter count).lookup key =
          some value) ∧
      (∀ key value,
        (countersMap store.zxid store.sessionManager.sessionIdCounter count).lookup key =
          some value → ∃ part ∈ maps, (part.lookup key).isSome) ∧
      ∀ actions, parseObjects ((store.countedObjects settings order count dataObjects).map
          bytes) = .ok actions ↔
        store.Accepted nodes ∧ actions = snapshotActions maps store.authsOf
          (order.sessions.entries () store.sessionManager.sessionAndTimeout)
          (store.rereadAcls order) (nodes.map fun entry => (entry.1, entry.2.reread)) := by
  have sessionLists := order.sessions.lists_entries () store.sessionManager.sessionAndTimeout
  have aclLists := order.acls.lists_entries () store.aclMap.numToAcl
  rcases parseBatches_serializeMap settings order (fun _ _ => length_le_of_lookup_countersMap)
    with ⟨maps, counters, parts, whole⟩
  refine ⟨maps, parts, whole, fun actions => ?_⟩
  have ofSessions := (serializeElements_batchesOf .session settings.saveBatchSize
    (serializeSession store.sessionAndAuth) _).parse_eq_ok_iff (fun _ => rfl) fun entry isEntry =>
      parseSession_serializeSession (lt_of_le_nuraftBufferSize (elementsShort.sessions _ _
        ((sessionLists.mem_iff entry.1 entry.2).mp isEntry)))
  have ofAcls := (serializeElements_batchesOf .aclMap settings.saveBatchSize
    serializeAcl _).parse_eq_ok_iff (fun _ => rfl) fun entry isEntry => parseAcl_serializeAcl
      (lt_of_le_nuraftBufferSize
        (elementsShort.acls _ _ ((aclLists.mem_iff entry.1 entry.2).mp isEntry)))
  have ofNodes := (batchesOf_dataObjects sound elements).parse_eq_ok_iff (fun _ => rfl)
    fun entry isEntry => parseNode_serializeKeeperNode
      (lt_of_le_nuraftBufferSize (elementsShort.nodes _ _ (ofTree entry isEntry)))
  rw [parseObjects_countedObjects_eq sound elements ofTree elementsShort fits]
  simp only [countedObjects, flatMap_cons, parseBatches_append, counters,
    Except.bind_eq_ok_iff, serializeSessions, serializeAcls, ofSessions, ofAcls, ofNodes]
  constructor
  · rintro ⟨_, same, _, ⟨_, ⟨auths, rfl⟩, _, ⟨_, ⟨aclsAccepted, rfl⟩, _,
      ⟨nodesAccepted, rfl⟩, rest⟩, others⟩, all⟩
    cases same
    cases rest
    cases others
    cases all
    refine ⟨⟨fun session timeoutMs found => ?_, fun number acls found => ?_, nodesAccepted⟩, ?_⟩
    · exact auths (session, timeoutMs) ((sessionLists.mem_iff _ _).mpr found)
    · exact aclsAccepted (number, acls) ((aclLists.mem_iff _ _).mpr found)
    · simp [snapshotActions, rereadAcls]
      rfl
  · rintro ⟨accepted, rfl⟩
    refine ⟨_, rfl, _, ⟨_, ⟨fun entry isEntry => ?_, rfl⟩, _, ⟨_, ⟨fun entry isEntry => ?_, rfl⟩, _,
      ⟨accepted.nodes, rfl⟩, rfl⟩, rfl⟩, ?_⟩
    · exact accepted.auths _ _ ((sessionLists.mem_iff _ _).mp isEntry)
    · exact accepted.acls _ _ ((aclLists.mem_iff _ _).mp isEntry)
    · simp [snapshotActions, rereadAcls]
      rfl

theorem KeeperStore.load_countedObjects
    (platform : Platform) (now : Int64) {start : KeeperStore}
    (indexed : start.sessionManager.sessionExpiryQueue.Indexed) :
    ∃ (loading : Loading) (queue : SessionExpiryQueue),
      (∀ loaded, start.loadLatestSnapshot platform now
          ((store.countedObjects settings order count dataObjects).map bytes) = .ok loaded ↔
        store.Accepted nodes ∧ loading.finish platform (dataObjects.length + 3) = .ok loaded) ∧
      (∀ found, loading.loadedObjectsCount = some found →
        found = (Int64.ofNat count).toUInt64.toUInt32) ∧
      loading.nodes = nodes.map (fun entry => (entry.1, entry.2.reread)) ∧
      loading.edges = edgesOf loading.nodes ∧ queue.Indexed ∧
      loading.store = store.restoredOnto start
        (order.sessions.entries () store.sessionManager.sessionAndTimeout)
        (store.rereadAcls order) loading.nodes queue := by
  rcases parseObjects_countedObjects sound elements ofTree elementsShort fits with
    ⟨maps, parts, whole, parsed⟩
  rcases Loading.apply_snapshot now
    (order.sessions.entries () store.sessionManager.sessionAndTimeout) (store.rereadAcls order)
    (nodes.map fun entry => (entry.1, entry.2.reread)) indexed parts whole
    with ⟨loading, queue, applied, loadedNodes, loadedEdges, counted, stillIndexed, loadedStore⟩
  rw [← loadedNodes] at loadedEdges loadedStore
  refine ⟨loading, queue, fun loaded => ?_, counted, loadedNodes, loadedEdges, stillIndexed,
    loadedStore⟩
  have length : ((store.countedObjects settings order count dataObjects).map
      bytes).length = dataObjects.length + 3 := by
    simp [countedObjects]
  rw [loadLatestSnapshot, if_neg (by simp [countedObjects]), Except.bind_eq_ok_iff, length]
  constructor
  · rintro ⟨actions, isParsed, rest⟩
    rcases (parsed actions).mp isParsed with ⟨accepted, rfl⟩
    rw [applied] at rest
    exact ⟨accepted, rest⟩
  · rintro ⟨accepted, finished⟩
    refine ⟨_, (parsed _).mpr ⟨accepted, rfl⟩, ?_⟩
    rw [applied]
    exact finished

end

variable {dataObjects : List SnapshotObject} {settings : SnapshotSettings} {order : SnapshotOrder}

theorem SnapshotOf.accepted (snapshot : SnapshotOf store nodes dataObjects)
    (elementsShort : store.ElementsShort)
    (fits : ∀ object ∈ store.snapshotObjects settings order dataObjects,
      ∀ batch ∈ object.batches, batch.Fits) {platform : Platform} {start loaded : KeeperStore}
    (indexed : start.sessionManager.sessionExpiryQueue.Indexed)
    (loads : start.loadLatestSnapshot platform now
      ((store.snapshotObjects settings order dataObjects).map bytes) = .ok loaded) :
    store.Accepted nodes := by
  rcases KeeperStore.load_countedObjects snapshot.sound snapshot.elements
    (fun entry isEntry => (snapshot.lists.mem_iff _ _).mp isEntry) elementsShort fits
    platform now indexed with ⟨loading, queue, loadsIff, _⟩
  exact ((loadsIff loaded).mp loads).1

theorem SnapshotOf.loads (snapshot : SnapshotOf store nodes dataObjects)
    (rooted : TreeRooted store.dataTree) (readable : store.Readable)
    (fits : ∀ object ∈ store.snapshotObjects settings order dataObjects,
      ∀ batch ∈ object.batches, batch.Fits) (platform : Platform) (now interval : Int64)
    (digest : Bytes) :
    ∃ loaded, (KeeperStore.new interval digest).loadLatestSnapshot platform now
        ((store.snapshotObjects settings order dataObjects).map bytes) = .ok loaded ∧
      loaded.RestoredFrom store ∧ loaded.superDigest = digest := by
  have ofTree : ∀ entry ∈ nodes, store.dataTree.lookup entry.1 = some entry.2 :=
    fun entry isEntry => (snapshot.lists.mem_iff _ _).mp isEntry
  rcases KeeperStore.load_countedObjects snapshot.sound snapshot.elements ofTree
    readable.elementsShort fits platform now (indexed_new interval digest) with
    ⟨loading, queue, loadsIff, counted, loadedNodes, loadedEdges, indexed, loadedStore⟩
  have reread : nodes.map (fun entry => (entry.1, entry.2.reread)) =
      nodes.map fun entry => (entry.1, entry.2.cloneWithoutChildren) := by
    apply map_congr_left
    intro entry isEntry
    rw [KeeperNode.reread_of_lt (readable.nodes _ _ (ofTree entry isEntry)).aclId]
  have numbers : store.rereadAcls order = order.acls.entries () store.aclMap.numToAcl := by
    refine Eq.trans (map_congr_left fun entry isEntry => ?_) (map_id _)
    rw [Nat.mod_eq_of_lt (readable.acls _ _
      (((order.acls.lists_entries () _).mem_iff entry.1 entry.2).mp isEntry)).1]
    rfl
  rw [reread] at loadedNodes
  rw [loadedNodes, numbers] at loadedStore
  have sessionLists := order.sessions.lists_entries () store.sessionManager.sessionAndTimeout
  have timeouts := @SessionManager.foldl_emplaceTimeout _ ∅ sessionLists.nodup
    fun _ _ => lookup_empty _
  rw [sessionLists.insertAll_empty] at timeouts
  have accepted : store.Accepted nodes := by
    refine ⟨fun session timeoutMs found => (readable.auths session timeoutMs found).1,
      fun number acls found => (readable.acls number acls found).2.1, fun entry isEntry => ?_⟩
    have isReadable := readable.nodes _ _ (ofTree entry isEntry)
    exact ⟨isReadable.path, isReadable.data, isReadable.numChildren⟩
  have finishes := loading.finish_eq platform fun found isFound => by
    rw [counted found isFound, toUInt32_ofNat snapshot.few]
  have loads := (loadsIff _).mpr ⟨accepted, finishes.trans (rooted.buildDataTree snapshot.lists
    platform loadedNodes loadedEdges (by rw [loadedStore]; rfl))⟩
  have owners : ∀ session path,
      (∃ node, (path, node) ∈ nodes.map (fun entry => (entry.1, entry.2.cloneWithoutChildren)) ∧
        node.stat.ephemeralOwner = session) ↔
      ∃ node, store.dataTree.lookup path = some node ∧ node.stat.ephemeralOwner = session := by
    intro session path
    simp [← snapshot.lists.mem_iff, KeeperNode.cloneWithoutChildren]
  refine ⟨_, loads, ?_, ?_⟩
  · rw [loadedStore]
    refine ⟨rfl, ?_, ?_, timeouts, ?_, rfl, rfl, indexed⟩
    · intro session path
      rw [← owners]
      refine (Loading.mem_foldl_addOwned ..).trans ?_
      simp [ephemeralsOf, KeeperStore.new]
    · intro session
      refine (Loading.lookup_foldl_addAuths ..).trans ?_
      simp only [sessionLists.mem_keys_iff]
      rfl
    · refine ⟨nodes, _, snapshot.lists, order.acls.lists_entries () store.aclMap.numToAcl, ?_⟩
      exact foldl_map
  · rw [loadedStore]
    rfl

end RaftKeeper
