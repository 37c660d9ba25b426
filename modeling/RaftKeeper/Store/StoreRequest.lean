import RaftKeeper.Lib.Decimal
import RaftKeeper.Store.KeeperStore

/-!
# Single operations

The `process` methods of `KeeperStore.cpp`. Besides its response, an operation hands
back an `Undo`, which a Multi runs when a later sub-request fails. The closures of the
source are data here: a constructor for each kind with what the closure captures.
-/

namespace RaftKeeper

open Decimal

def KeeperNode.gainChild (zxid : Int64) (name : Bytes) (parent : KeeperNode) : KeeperNode :=
  { parent with
    children := insert name parent.children
    stat := { parent.stat with
      cversion := parent.stat.cversion + 1
      numChildren := parent.stat.numChildren + 1
      pzxid := zxid } }

def KeeperNode.ungainChild (pzxid : Int64) (name : Bytes) (parent : KeeperNode) : KeeperNode :=
  { parent with
    children := parent.children.erase name
    stat := { parent.stat with
      cversion := parent.stat.cversion - 1
      numChildren := parent.stat.numChildren - 1
      pzxid := pzxid } }

def KeeperNode.loseChild (zxid : Int64) (name : Bytes) (parent : KeeperNode) : KeeperNode :=
  { parent with
    children := parent.children.erase name
    stat := { parent.stat with numChildren := parent.stat.numChildren - 1, pzxid := zxid } }

def KeeperNode.unloseChild (pzxid : Int64) (name : Bytes) (parent : KeeperNode) : KeeperNode :=
  { parent with
    children := insert name parent.children
    stat := { parent.stat with numChildren := parent.stat.numChildren + 1, pzxid := pzxid } }

def KeeperNode.setData (zxid time : Int64) (data : Bytes) (node : KeeperNode) : KeeperNode :=
  { node with
    data := data
    stat := { node.stat with
      version := node.stat.version + 1
      mzxid := zxid
      mtime := time
      dataLength := Int32.ofNat data.length } }

/-- What the closure of a Create captures. -/
structure CreateUndo where
  sessionId : Int64
  pathCreated : Bytes
  pzxid : Int64
  isEphemeral : Bool
  parentPath : Bytes
  childPath : Bytes
  aclId : ℕ

/-- What the closure of a Remove captures. -/
structure RemoveUndo where
  prevNode : KeeperNode
  ephemeralOwner : Int64
  path : Bytes
  pzxid : Int64
  childBasename : Bytes

/-- What takes an operation back. -/
inductive Undo
  | nothing
  | create (undo : CreateUndo)
  | remove (undo : RemoveUndo)
  | set (prevNode : KeeperNode) (path : Bytes)

namespace Undo

/-- What an undo action does to the data tree; `none` is a dereferenced null parent. -/
def dataTree (tree : DataTree) : Undo → Option DataTree
  | nothing => some tree
  | create undo =>
    let removed := tree.erase undo.pathCreated
    match removed.lookup undo.parentPath with
    | none => none
    | some _ => some (removed.modify undo.parentPath (.ungainChild undo.pzxid undo.childPath))
  | remove undo =>
    let added := tree.insert undo.path undo.prevNode
    match added.lookup (getParentPath undo.path) with
    | none => none
    | some _ =>
      some (added.modify (getParentPath undo.path) (.unloseChild undo.pzxid undo.childBasename))
  | set prevNode path => some (tree.insert path prevNode)

def aclMap (table : ACLMap) : Undo → ACLMap
  | create undo => table.removeUsage undo.aclId
  | remove undo => table.addUsage undo.prevNode.aclId
  | nothing | set .. => table

def ephemerals (ephemerals : Dict Int64 (Finset Bytes)) : Undo → Dict Int64 (Finset Bytes)
  | create undo =>
    if undo.isEphemeral then removeEphemeralNode ephemerals undo.sessionId undo.pathCreated
    else ephemerals
  | remove undo =>
    if undo.prevNode.isEphemeral then addEphemeralNode ephemerals undo.ephemeralOwner undo.path
    else ephemerals
  | nothing | set .. => ephemerals

def run (state : StoreState) (undo : Undo) : Option StoreState :=
  (undo.dataTree state.dataTree).map fun tree =>
    { state with
      dataTree := tree
      aclMap := undo.aclMap state.aclMap
      ephemerals := undo.ephemerals state.ephemerals }

@[simp]
theorem run_nothing (state : StoreState) : nothing.run state = some state := rfl

def runAll : List Undo → StoreState → Option StoreState
  | [], state => some state
  | undo :: earlier, state =>
    match undo.run state with
    | some undone => runAll earlier undone
    | none => none

end Undo

/-- A number as `operator<<` writes it. -/
def printInt : ℤ → Bytes
  | .ofNat value => decimal value
  | .negSucc value => 45 :: decimal (value + 1)

/-- The suffix of a sequential node: `setw(10) << setfill('0')`, with the fill before the sign. -/
def sequenceSuffix (seqNum : Int32) : Bytes :=
  let digits := printInt seqNum.toInt
  List.replicate (10 - digits.length) 48 ++ digits

/-- What `process` of an operation returns. -/
abbrev Processed := StoreState × Response × Undo

/-- `path_created` of a Create below this parent. -/
def CreateRequest.pathCreated (request : CreateRequest) (parent : KeeperNode) : Bytes :=
  if request.isSequential then request.path ++ sequenceSuffix parent.stat.cversion
  else request.path

def CreateRequest.node (request : CreateRequest) (zxid session time : Int64) (aclId : ℕ) :
    KeeperNode :=
  { data := request.data
    aclId := aclId
    isEphemeral := request.isEphemeral
    isSequential := request.isSequential
    stat :=
      { czxid := zxid
        mzxid := zxid
        pzxid := zxid
        ctime := time
        mtime := time
        dataLength := Int32.ofNat request.data.length
        ephemeralOwner := if request.isEphemeral then session else 0 } }

/-- The ACL number of a new node; `none` when the list is invalid. -/
def StoreState.createACL (state : StoreState) (session : Int64) (acls : ACLs) :
    StoreState × Option ℕ :=
  if acls = [] then (state, some 0)
  else
    let touched := state.touchAuth session
    match fixupACL acls (state.authsOf session) with
    | none => (touched, none)
    | some nodeAcls =>
      ({ touched with aclMap := (touched.aclMap.intern nodeAcls).2 },
        some (touched.aclMap.intern nodeAcls).1)

/-- The state after a successful Create, once the ACL number is known. -/
def StoreState.addCreated (state : StoreState) (zxid session time : Int64)
    (request : CreateRequest) (parent : KeeperNode) (aclId : ℕ) : StoreState :=
  let pathCreated := request.pathCreated parent
  { state with
    dataTree :=
      (state.dataTree.modify (getParentPath request.path)
        (.gainChild zxid (getBaseName pathCreated))).insert pathCreated
          (request.node zxid session time aclId)
    ephemerals :=
      if request.isEphemeral then addEphemeralNode state.ephemerals session pathCreated
      else state.ephemerals }

/-- What the undo closure of Create captures. -/
def CreateRequest.undo (request : CreateRequest) (session : Int64) (parent : KeeperNode)
    (aclId : ℕ) : CreateUndo :=
  { sessionId := session
    pathCreated := request.pathCreated parent
    pzxid := parent.stat.pzxid
    isEphemeral := request.isEphemeral
    parentPath := getParentPath request.path
    childPath := getBaseName (request.pathCreated parent)
    aclId := aclId }

/-- `StoreRequestCreate::process`. -/
def StoreState.create (state : StoreState) (zxid session time : Int64) (request : CreateRequest) :
    Processed :=
  let fail (error : Error) : Processed := (state, { error, payload := .create [] }, .nothing)
  match state.dataTree.lookup (getParentPath request.path) with
  | none => fail .znonode
  | some parent =>
    let pathCreated := request.pathCreated parent
    if parent.isEphemeral then fail .znochildrenforephemerals
    else if request.isSequential && request.notExists then fail .zbadarguments
    else if (state.dataTree.lookup pathCreated).isSome then
      if request.notExists then (state, { payload := .create request.path }, .nothing)
      else fail .znodeexists
    else if getBaseName pathCreated = [] then fail .zbadarguments
    else
      match state.createACL session request.acls with
      | (touched, none) =>
        (touched, { error := .zinvalidacl, payload := .create [] }, .nothing)
      | (interned, some aclId) =>
        (interned.addCreated zxid session time request parent aclId,
          { payload := .create pathCreated }, .create (request.undo session parent aclId))

/-- `StoreRequestGet::process`. -/
def StoreState.get (state : StoreState) (path : Bytes) : Response :=
  match state.dataTree.lookup path with
  | none => { error := .znonode, payload := .get [] {} }
  | some node => { payload := .get node.data node.statForResponse }

/-- `StoreRequestExists::process`. -/
def StoreState.exists (state : StoreState) (path : Bytes) : Response :=
  match state.dataTree.lookup path with
  | none => { error := .znonode, payload := .exists {} }
  | some node => { payload := .exists node.statForResponse }

def StoreState.dropRemoved (state : StoreState) (zxid : Int64) (path : Bytes)
    (node : KeeperNode) : StoreState :=
  { state with
    dataTree :=
      (state.dataTree.modify (getParentPath path) (.loseChild zxid (getBaseName path))).erase path
    aclMap := state.aclMap.removeUsage node.aclId
    ephemerals :=
      if node.isEphemeral then
        removeEphemeralNode state.ephemerals node.stat.ephemeralOwner path
      else state.ephemerals }

/-- What the undo closure of Remove captures. -/
def removeUndo (path : Bytes) (node parent : KeeperNode) : RemoveUndo :=
  { prevNode := node
    ephemeralOwner := if node.isEphemeral then node.stat.ephemeralOwner else 0
    path := path
    pzxid := parent.stat.pzxid
    childBasename := getBaseName path }

/-- `StoreRequestRemove::process`. -/
def StoreState.remove (state : StoreState) (zxid : Int64) (request : RemoveRequest) :
    Result StoreState Processed :=
  let fail (error : Error) : Result StoreState Processed :=
    .returned (state, { error, payload := .remove }, .nothing)
  match state.dataTree.lookup request.path with
  | none => fail .znonode
  | some node =>
    if request.version ≠ -1 ∧ request.version ≠ node.stat.version then fail .zbadversion
    else if node.children ≠ ∅ then fail .znotempty
    else
      match state.dataTree.lookup (getParentPath request.path) with
      | none => .crashed
      | some parent =>
        .returned
          (state.dropRemoved zxid request.path node, { payload := .remove },
            .remove (removeUndo request.path node parent))

/-- `StoreRequestSet::process`. -/
def StoreState.set (state : StoreState) (zxid time : Int64) (request : SetRequest) : Processed :=
  match state.dataTree.lookup request.path with
  | none => (state, { error := .znonode, payload := .set {} }, .nothing)
  | some node =>
    if request.version = -1 ∨ request.version = node.stat.version then
      let updated := node.setData zxid time request.data
      ({ state with dataTree := state.dataTree.insert request.path updated },
        { payload := .set updated.statForResponse }, .set node request.path)
    else (state, { error := .zbadversion, payload := .set {} }, .nothing)

/-- Whether a FilteredList of this type shows a node: 1 is PERSISTENT_ONLY, 2 EPHEMERAL_ONLY. -/
def showsNode (listRequestType : UInt8) (node : KeeperNode) : Bool :=
  (node.stat.ephemeralOwner ≠ 0 && listRequestType = 2) ||
    (node.stat.ephemeralOwner = 0 && listRequestType = 1)

/-- The path under which a FilteredList looks a child up. -/
def listedChildPath (path child : Bytes) : Bytes := path ++ slash :: child

/-- `StoreRequestList::process`. -/
def StoreState.list (state : StoreState) (kind : ListKind) (path : Bytes) :
    Result StoreState Response :=
  match state.dataTree.lookup path with
  | none =>
    let response := (SingleRequest.list kind path false).makeResponse
    .returned { response with error := .znonode }
  | some node =>
    if path = [] then .thrown .emptyPath state
    else
      match kind with
      | .simple => .returned { payload := .simpleList node.children }
      | .full => .returned { payload := .list node.children node.statForResponse }
      | .filtered listRequestType =>
        if listRequestType = 0 then
          .returned { payload := .list node.children node.statForResponse }
        else if ∀ child ∈ node.children,
            (state.dataTree.lookup (listedChildPath path child)).isSome then
          let shown := node.children.filter fun child =>
            (state.dataTree.lookup (listedChildPath path child)).any (showsNode listRequestType)
          .returned { payload := .list shown node.statForResponse }
        else .crashed

/-- `StoreRequestCheck::process`. -/
def StoreState.check (state : StoreState) (request : CheckRequest) : Response :=
  let matchesVersion (node : KeeperNode) : Bool :=
    request.version = -1 || request.version = node.stat.version
  let payload : Payload Response := if request.notExists then .checkNotExists else .check
  match state.dataTree.lookup request.path with
  | none => { error := if request.notExists then .zok else .znonode, payload }
  | some node =>
    if request.notExists then
      { error := if matchesVersion node then .znodeexists else .zok, payload }
    else { error := if matchesVersion node then .zok else .zbadversion, payload }

/-- The state that a SetACL leaves. -/
def StoreState.replaceAcls (state : StoreState) (auths : Dict Int64 AuthIDs) (path : Bytes)
    (node : KeeperNode) (nodeAcls : ACLs) : StoreState :=
  { state with
    sessionAndAuth := auths
    aclMap := (state.aclMap.intern nodeAcls).2
    dataTree := state.dataTree.insert path
      { node with
        aclId := (state.aclMap.intern nodeAcls).1
        stat := { node.stat with aversion := node.stat.aversion + 1 } } }

/-- `StoreRequestSetACL::process`. -/
def StoreState.setACL (state : StoreState) (session : Int64) (request : SetACLRequest) :
    StoreState × Response :=
  let fail (error : Error) : StoreState × Response := (state, { error, payload := .setACL {} })
  match state.dataTree.lookup request.path with
  | none => fail .znonode
  | some node =>
    if request.version ≠ -1 ∧ request.version ≠ node.stat.aversion then fail .zbadversion
    else
      let touched := state.touchAuth session
      match fixupACL request.acls (state.authsOf session) with
      | none => (touched, { error := .zinvalidacl, payload := .setACL {} })
      | some nodeAcls =>
        -- the use of the old list is not given back
        (state.replaceAcls touched.sessionAndAuth request.path node nodeAcls,
          { payload := .setACL { node.stat with aversion := node.stat.aversion + 1 } })

/-- `StoreRequestGetACL::process`. -/
def StoreState.getACL (state : StoreState) (path : Bytes) : Result StoreState Response :=
  match state.dataTree.lookup path with
  | none => .returned { error := .znonode, payload := .getACL [] {} }
  | some node =>
    match state.aclMap.convertNumber node.aclId with
    | none => .thrown (.unknownACL node.aclId) state
    | some acls => .returned { payload := .getACL acls node.stat }

/-- `StoreRequestAuth::process`. -/
def StoreState.auth (state : StoreState) (platform : Platform) (session : Int64)
    (scheme data : Bytes) : StoreState × Response :=
  if scheme ≠ ascii "digest" ∨ data.count 58 ≠ 1 then
    (state, { error := .zauthfailed, payload := .auth })
  else
    let digest := platform.generateDigest data
    let auths := state.authsOf session
    let added :=
      if digest = state.superDigest then auths ++ [{ scheme := ascii "super", id := [] }]
      else if { scheme := scheme, id := digest } ∈ auths then auths
      else auths ++ [{ scheme := scheme, id := digest }]
    ({ state with sessionAndAuth := state.sessionAndAuth.insert session added },
      { payload := .auth })

/-- Lift a result without state changes to what `process` returns. -/
def Result.keeping (state : StoreState) : Result StoreState Response → Result StoreState Processed
  | .returned response => .returned (state, response, .nothing)
  | .thrown exception after => .thrown exception after
  | .crashed => .crashed
  | .blocked => .blocked

/-- `StoreRequest::process` of a single request. -/
def StoreState.process (platform : Platform) (state : StoreState) (zxid session time : Int64)
    (request : SingleRequest) : Result StoreState Processed :=
  match request with
  | .heartbeat | .setWatches _ => .returned (state, request.makeResponse, .nothing)
  | .sync path => .returned (state, { payload := .sync path }, .nothing)
  | .auth _ scheme data =>
    let (after, response) := state.auth platform session scheme data
    .returned (after, response, .nothing)
  | .close => .thrown .calledProcessOnClose state
  | .create request => .returned (state.create zxid session time request)
  | .remove request => state.remove zxid request
  | .exists path _ => .returned (state, state.exists path, .nothing)
  | .get path _ => .returned (state, state.get path, .nothing)
  | .set request => .returned (state.set zxid time request)
  | .list kind path _ => (state.list kind path).keeping state
  | .check request => .returned (state, state.check request, .nothing)
  | .setACL request =>
    let (after, response) := state.setACL session request
    .returned (after, response, .nothing)
  | .getACL path => (state.getACL path).keeping state
  | .newSession _ | .updateSession _ => .thrown (.unknownOperation request.getOpNum) state

end RaftKeeper
