import RaftKeeper.Snapshot.Format
import RaftKeeper.Store.ProcessRequest

/-!
# Loading a snapshot

`KeeperSnapshotStore::loadLatestSnapshot`. Each element is parsed to a `LoadAction`, the update it
asks for, and the actions are applied in the order of the objects. The data tree is then built
bucket by bucket: the nodes are put in, and every edge whose parent is in the bucket adds a name to
it. The source does both phases in several threads. A load without a result throws or runs into
undefined behaviour; the server does not start then.
-/

namespace RaftKeeper

open List ZooReader

/-- What an element of a snapshot does to the store. -/
inductive LoadAction
  | node (path : Bytes) (node : KeeperNode)
  | session (sessionId timeoutMs : Int64) (auths : AuthIDs)
  | acl (number : ℕ) (acls : ACLs)
  | intMap (values : Dict Bytes Int64)

/-- `parseKeeperNode`; in version 0 a list of ACLs stands where the number is. -/
def parseKeeperNode (version : SnapshotVersion) : ZooReader (Bytes × KeeperNode) := do
  let path ← string
  let data ← string
  let aclId ← if version = .v0 then (fun _ => 0) <$> vector acl
    else uint64
  let isEphemeral ← bool
  let isSequential ← bool
  let stat ← stat
  pure (path, { data, aclId, isEphemeral, isSequential, stat })

def parseNode (version : SnapshotVersion) (position : ℕ) (element : Bytes) :
    Except LoadError LoadAction :=
  match (parseKeeperNode version).run element with
  | .error _ => .error (.cantParseNode (position + 1))
  | .ok ((path, node), _) =>
    -- `children.reserve(stat.numChildren)`
    if node.stat.numChildren < 0 then .error (.cantParseNode (position + 1))
    else .ok (.node path { node with aclId := if node.aclId = 2 ^ 64 - 1 then 0 else node.aclId })

/-- What `parseBatchSessionV2` reads; version 0 has no identities. -/
def readSession (version : SnapshotVersion) : ZooReader LoadAction := do
  let session ← int64
  let timeoutMs ← int64
  let auths ← if version = .v0 then pure [] else vector authID
  pure (.session session timeoutMs auths)

def parseSession (version : SnapshotVersion) (position : ℕ) (element : Bytes) :
    Except LoadError LoadAction :=
  match (readSession version).run element with
  | .error _ => .error (.cantParseSession (position + 1))
  | .ok (action, _) => .ok action

def readAcl : ZooReader LoadAction := do
  let number ← uint64
  let acls ← vector acl
  pure (.acl number acls)

def parseAcl (position : ℕ) (element : Bytes) : Except LoadError LoadAction :=
  match readAcl.run element with
  | .error _ => .error (.cantParseAcl (position + 1))
  | .ok (action, _) => .ok action

def readIntEntry : ZooReader (Bytes × Int64) := do
  let key ← string
  let value ← int64
  pure (key, value)

def parseIntEntry (position : ℕ) (element : Bytes) : Except LoadError (Bytes × Int64) :=
  match readIntEntry.run element with
  | .error _ => .error (.cantParseIntMap (position + 1))
  | .ok (entry, _) => .ok entry

def parseElements {α : Type} (parse : ℕ → Bytes → Except LoadError α) :
    ℕ → List Bytes → Except LoadError (List α)
  | _, [] => .ok []
  | position, element :: rest => do
      let first ← parse position element
      let others ← parseElements parse (position + 1) rest
      pure (first :: others)

def intMapOf (entries : List (Bytes × Int64)) : Dict Bytes Int64 :=
  (∅ : Dict Bytes Int64).insertAll entries

def parseBatch (version : SnapshotVersion) (type : Option SnapshotBatchType)
    (elements : List Bytes) : Except LoadError (List LoadAction) :=
  match type with
  | some .data => parseElements (parseNode version) 0 elements
  | some .session => parseElements (parseSession version) 0 elements
  | some .aclMap => if version = .v0 then .ok [] else parseElements parseAcl 0 elements
  | some .uintMap => do
      let entries ← parseElements parseIntEntry 0 elements
      pure [.intMap (intMapOf entries)]
  | some .dataEphemeral | some .config | some .server | some .stringMap | none => .ok []

def parseBatchBody (version : SnapshotVersion) (body : Bytes) :
    Except LoadError (List LoadAction) :=
  match SnapshotBatchBody.parse.run body with
  | .error error => .error error
  | .ok ((type, elements), _) => parseBatch version type elements

/-- What `parseObject` has after a batch. -/
structure BatchRead where
  checksum : UInt32
  actions : List LoadAction
  rest : Bytes

def readBatch (version : SnapshotVersion) (checksum : UInt32) (input : Bytes) :
    Except LoadError BatchRead :=
  if input.length < 8 then .error .cantReadBatch
  else
    let dataLength := ofLittleEndian (input.take 4)
    let dataCrc := UInt32.ofNat (ofLittleEndian ((input.drop 4).take 4))
    let body := (input.drop 8).take dataLength
    if (input.drop 8).length < dataLength then .error .cantReadBatch
    else if getCRC32 body ≠ dataCrc then .error .batchCrcNotMatch
    else
      (parseBatchBody version body).map fun actions =>
        { checksum := updateCheckSum checksum dataCrc
          actions := actions
          rest := (input.drop 8).drop dataLength }

theorem BatchRead.rest_shorter {version : SnapshotVersion} {checksum : UInt32} {input : Bytes}
    {batch : BatchRead} (succeeds : readBatch version checksum input = .ok batch) :
    batch.rest.length + 8 ≤ input.length := by
  simp only [readBatch] at succeeds
  split at succeeds
  · cases succeeds
  · rename_i long
    split at succeeds
    · cases succeeds
    · split at succeeds
      · cases succeeds
      · cases parsed : parseBatchBody version _ with
        | error error =>
          rw [parsed] at succeeds
          cases succeeds
        | ok actions =>
          rw [parsed] at succeeds
          cases succeeds
          simp only [length_drop]
          omega

/-- The enumerator of a version byte; greater ones are not supported. -/
def SnapshotVersion.ofByte (byte : UInt8) : Option SnapshotVersion :=
  if byte = 0 then some .v0 else if byte = 1 then some .v1 else if byte = 2 then some .v2 else none

def parseLoop (version : Option SnapshotVersion) (checksum : UInt32) (input : Bytes) :
    Except LoadError (List LoadAction) :=
  if input.length < 8 then
    -- an object of version 0 has no tail
    if version = some .v0 then .ok [] else .error .loadMagic
  else if input.take 8 = magicSnapshotHead then
    match _afterMagic : input.drop 8 with
    | [] => if version.isNone then .error .unsupportedVersion else .error .cantReadBatch
    | byte :: rest =>
      match SnapshotVersion.ofByte byte with
      | none => .error .unsupportedVersion
      | some current =>
        -- a batch follows, and its header is not compared with the magics
        match _succeeds : readBatch current checksum rest with
        | .error error => .error error
        | .ok batch =>
          (parseLoop (some current) batch.checksum batch.rest).map (batch.actions ++ ·)
  else if input.take 8 = magicSnapshotTail then
    if (input.drop 8).length < 4 then .error .undefinedBehaviour
    else if UInt32.ofNat (ofLittleEndian ((input.drop 8).take 4)) ≠ checksum then
      .error .checksumDoesntMatch
    else .ok []
  else
    match _succeeds : readBatch (version.getD .v0) checksum input with
    | .error error => .error error
    | .ok batch =>
      (parseLoop (some (version.getD .v0)) batch.checksum batch.rest).map (batch.actions ++ ·)
termination_by input.length
decreasing_by
  · have shorter := BatchRead.rest_shorter _succeeds
    have dropped := congrArg length _afterMagic
    rw [length_drop, length_cons] at dropped
    omega
  · have shorter := BatchRead.rest_shorter _succeeds
    omega

def parseObject (file : Bytes) : Except LoadError (List LoadAction) := parseLoop none 0 file

/-- `parseLoop` with a bound on its rounds, for evaluation. -/
def parseWithin : ℕ → Option SnapshotVersion → UInt32 → Bytes → Except LoadError (List LoadAction)
  | 0, _, _, _ => .error .undefinedBehaviour
  | rounds + 1, version, checksum, input =>
    if input.length < 8 then if version = some .v0 then .ok [] else .error .loadMagic
    else if input.take 8 = magicSnapshotHead then
      match input.drop 8 with
      | [] => if version.isNone then .error .unsupportedVersion else .error .cantReadBatch
      | byte :: rest =>
        match SnapshotVersion.ofByte byte with
        | none => .error .unsupportedVersion
        | some current => do
            let batch ← readBatch current checksum rest
            (parseWithin rounds (some current) batch.checksum batch.rest).map (batch.actions ++ ·)
    else if input.take 8 = magicSnapshotTail then
      if (input.drop 8).length < 4 then .error .undefinedBehaviour
      else if UInt32.ofNat (ofLittleEndian ((input.drop 8).take 4)) ≠ checksum then
        .error .checksumDoesntMatch
      else .ok []
    else do
      let batch ← readBatch (version.getD .v0) checksum input
      (parseWithin rounds (some (version.getD .v0)) batch.checksum batch.rest).map
        (batch.actions ++ ·)

theorem parseLoop_eq_parseWithin {rounds : ℕ} {version : Option SnapshotVersion} {checksum : UInt32}
    {input : Bytes} (enough : input.length < rounds) :
    parseLoop version checksum input = parseWithin rounds version checksum input := by
  induction rounds generalizing version checksum input with
  | zero => omega
  | succ rounds ih =>
    have later : ∀ {current : SnapshotVersion} {source : Bytes} {batch : BatchRead},
        source.length ≤ input.length → readBatch current checksum source = .ok batch →
          parseLoop (some current) batch.checksum batch.rest =
            parseWithin rounds (some current) batch.checksum batch.rest := by
      intro current source batch shorter succeeds
      have := BatchRead.rest_shorter succeeds
      exact ih (by omega)
    rw [parseLoop, parseWithin]
    split
    · rfl
    split
    · split
      · next afterMagic => simp only [afterMagic]
      · next byte rest afterMagic =>
          have dropped := congrArg length afterMagic
          rw [length_drop, length_cons] at dropped
          simp only [afterMagic]
          cases SnapshotVersion.ofByte byte with
          | none => rfl
          | some current =>
            dsimp only
            cases succeeds : readBatch current checksum rest with
            | error => rfl
            | ok batch =>
              dsimp only
              rw [later (by omega) succeeds]
              rfl
    split
    · rfl
    · cases succeeds : readBatch (version.getD .v0) checksum input with
      | error => rfl
      | ok batch =>
        dsimp only
        rw [later le_rfl succeeds]
        rfl

/-- The store and what is collected next to it while the objects are parsed. -/
structure Loading where
  store : KeeperStore
  nodes : List (Bytes × KeeperNode) := []
  edges : List (Bytes × Bytes) := []
  loadedObjectsCount : Option UInt32 := none

def Loading.addNode (loading : Loading) (path : Bytes) (node : KeeperNode) : Loading :=
  { loading with
    store := { loading.store with
      aclMap := loading.store.aclMap.addUsage node.aclId
      ephemerals :=
        if node.stat.ephemeralOwner ≠ 0 then
          addEphemeralNode loading.store.ephemerals node.stat.ephemeralOwner path
        else loading.store.ephemerals }
    edges :=
      if path ≠ rootPath then loading.edges ++ [(getParentPath path, getBaseName path)]
      else loading.edges
    nodes := loading.nodes ++ [(path, node)] }

def Loading.addSession (loading : Loading) (now session timeoutMs : Int64) (auths : AuthIDs) :
    Except LoadError Loading :=
  match loading.store.sessionManager.addSessionID now session timeoutMs with
  | none => .error .undefinedBehaviour
  | some sessionManager =>
    .ok { loading with
      store := { loading.store with
        sessionManager := sessionManager
        sessionAndAuth :=
          if auths ≠ [] then loading.store.sessionAndAuth.insert session auths
          else loading.store.sessionAndAuth } }

def Loading.setCounters (loading : Loading) (values : Dict Bytes Int64) : Loading where
  store := { loading.store with
    zxid := (values.lookup (ascii "ZXID")).getD loading.store.zxid
    sessionManager := { loading.store.sessionManager with
      sessionIdCounter :=
        (values.lookup (ascii "SESSIONID")).getD loading.store.sessionManager.sessionIdCounter } }
  nodes := loading.nodes
  edges := loading.edges
  -- `parseBatchBodyV2` resets the count before each batch
  loadedObjectsCount := (values.lookup (ascii "OBJECTCOUNT")).map fun count =>
    count.toUInt64.toUInt32

def LoadAction.apply (now : Int64) (loading : Loading) : LoadAction → Except LoadError Loading
  | .node path parsed => .ok (loading.addNode path parsed)
  | .session sessionId timeoutMs auths => loading.addSession now sessionId timeoutMs auths
  | .acl number acls =>
    .ok { loading with
      store := { loading.store with aclMap := loading.store.aclMap.addMapping number acls } }
  | .intMap values => .ok (loading.setCounters values)

def dataTreeBucketNum : ℕ := 16

def Platform.getBucketIndex (platform : Platform) (path : Bytes) : ℕ :=
  platform.hash path % dataTreeBucketNum

/-- `KeeperStore::fillDataTreeBucket`, for the nodes of one bucket. -/
def fillDataTree : DataTree → List (Bytes × KeeperNode) → Except LoadError DataTree
  | tree, [] => .ok tree
  | tree, (path, node) :: rest =>
    if (tree.lookup path).isSome ∧ path ≠ rootPath then .error (.duplicatedNode path)
    else fillDataTree (tree.insert path node) rest

/-- `KeeperStore::buildBucketChildren`, for the edges of one bucket. -/
def buildChildren : DataTree → List (Bytes × Bytes) → Except LoadError DataTree
  | tree, [] => .ok tree
  | tree, (parent, name) :: rest =>
    match tree.lookup parent with
    | none => .error (.noParent name)
    | some node =>
      buildChildren (tree.insert parent { node with children := insert name node.children }) rest

def buildBucket (platform : Platform) (loading : Loading) (tree : DataTree) (bucket : ℕ) :
    Except LoadError DataTree := do
  let filled ← fillDataTree tree
    (loading.nodes.filter fun entry => platform.getBucketIndex entry.1 = bucket)
  buildChildren filled (loading.edges.filter fun edge => platform.getBucketIndex edge.1 = bucket)

def parseObjects : List Bytes → Except LoadError (List LoadAction)
  | [] => .ok []
  | file :: rest => do
      let actions ← parseObject file
      let others ← parseObjects rest
      pure (actions ++ others)

/-- `parseObjects` for evaluation; a file has no more batches than bytes. -/
def parseObjectsWithin : List Bytes → Except LoadError (List LoadAction)
  | [] => .ok []
  | file :: rest => do
      let actions ← parseWithin (file.length + 1) none 0 file
      let others ← parseObjectsWithin rest
      pure (actions ++ others)

theorem parseObjects_eq_parseObjectsWithin (files : List Bytes) :
    parseObjects files = parseObjectsWithin files := by
  induction files with
  | nil => rfl
  | cons file rest ih =>
    rw [parseObjects, parseObjectsWithin, ih, parseObject,
      parseLoop_eq_parseWithin (Nat.lt_succ_self file.length)]

def Loading.buildDataTree (platform : Platform) (loading : Loading) :
    Except LoadError KeeperStore :=
  ((range dataTreeBucketNum).foldlM (buildBucket platform loading)
    loading.store.dataTree).map fun tree => { loading.store with dataTree := tree }

def Loading.finish (platform : Platform) (loading : Loading) (objects : ℕ) :
    Except LoadError KeeperStore :=
  match loading.loadedObjectsCount with
  | some count =>
    if count.toNat ≠ objects then .error (.objectIncomplete count.toNat objects)
    else loading.buildDataTree platform
  | none => loading.buildDataTree platform

/-- `KeeperSnapshotStore::loadLatestSnapshot` on the files of one snapshot. -/
def KeeperStore.loadLatestSnapshot (platform : Platform) (now : Int64) (store : KeeperStore)
    (files : List Bytes) : Except LoadError KeeperStore :=
  if files = [] then .error .undefinedBehaviour
  else do
    let actions ← parseObjects files
    let loading ← actions.foldlM (LoadAction.apply now) { store }
    loading.finish platform files.length

end RaftKeeper
