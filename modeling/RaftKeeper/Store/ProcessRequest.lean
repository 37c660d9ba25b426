import RaftKeeper.Store.StoreRequest

/-!
# Requests

`KeeperStore::processRequest` and `StoreRequestMultiTxn`. `RequestProcessor` calls the former with
no `new_last_zxid` and with `check_acl` set; the other values are used to convert a ZooKeeper log.
-/

namespace RaftKeeper

/-- The operation type a sub-request gives to its Multi; `none` when it may not be part of one. -/
def SingleRequest.multiType : SingleRequest → Option OperationType
  | create _ | remove _ | set _ | check _ => some .write
  | get .. | .exists .. | list .. => some .read
  | heartbeat | setWatches _ | sync _ | auth .. | close | setACL _ | getACL _ | newSession _
  | updateSession _ => none

/-- A Multi with sub-requests that may stand together. -/
structure StoreRequestMultiTxn where
  operationType : OperationType := .unspecified
  concreteRequests : List SingleRequest := []

namespace StoreRequestMultiTxn

def add (txn : StoreRequestMultiTxn) (request : Request) : Except Exception StoreRequestMultiTxn :=
  match request with
  | .multi .. => .error (.illegalCommand request.getOpNum)
  | .single concrete =>
    match concrete.multiType with
    | none => .error (.illegalCommand request.getOpNum)
    | some type =>
      if txn.operationType ≠ .unspecified ∧ txn.operationType ≠ type then .error .illegalMixing
      else
        .ok
          { operationType := type
            concreteRequests := txn.concreteRequests ++ [concrete] }

def make : List Request → StoreRequestMultiTxn → Except Exception StoreRequestMultiTxn
  | [], txn => .ok txn
  | request :: rest, txn =>
    match txn.add request with
    | .ok extended => make rest extended
    | .error exception => .error exception

def checkAuth (state : StoreState) (session : Int64) : List SingleRequest → Except Exception Bool
  | [] => .ok true
  | request :: rest =>
    match state.checkAuth session request with
    | .ok true => checkAuth state session rest
    | other => other

def errorResponse (error : Error) : Response := { error, payload := .error }

/-- The loop of `StoreRequestMultiTxn::process`; `undoActions` has the latest action first. -/
def loop (platform : Platform) (zxid session time : Int64) (operationType : OperationType) :
    List SingleRequest → StoreState → List Response → List Undo →
      Result StoreState (StoreState × List Response)
  | [], state, responses, _ => .returned (state, responses)
  | request :: rest, state, responses, undoActions =>
    match state.process platform zxid session time request with
    | .returned (after, response, undoAction) =>
      if response.error ≠ .zok ∧ operationType = .write then
        match Undo.runAll undoActions after with
        | none => .crashed
        | some undone =>
          .returned (undone,
            (responses ++ [response]).map (fun made => errorResponse made.error) ++
              rest.map fun _ => errorResponse .zruntimeinconsistency)
      else
        let shown :=
          if platform.compatibleModeZookeeper ∧ response.error ≠ .zok then
            errorResponse response.error
          else response
        loop platform zxid session time operationType rest after (responses ++ [shown])
          (undoAction :: undoActions)
    | .thrown exception after =>
      match Undo.runAll undoActions after with
      | none => .crashed
      | some undone => .thrown exception undone
    | .crashed => .crashed
    | .blocked => .blocked

end StoreRequestMultiTxn

/-- What `StoreRequestFactory` makes of a request. -/
inductive StoreRequest
  | single (request : SingleRequest)
  | multi (txn : StoreRequestMultiTxn)

namespace StoreRequest

def make : Request → Except Exception StoreRequest
  | .single (.newSession _) => .error (.unknownOperation .newSession)
  | .single (.updateSession _) => .error (.unknownOperation .updateSession)
  | .single request => .ok (single request)
  | .multi _ requests => (StoreRequestMultiTxn.make requests {}).map multi

def checkAuth (state : StoreState) (session : Int64) : StoreRequest → Except Exception Bool
  | single request => state.checkAuth session request
  | multi txn => StoreRequestMultiTxn.checkAuth state session txn.concreteRequests

/-- The payload that a Multi of this type answers with. -/
def multiPayload : OperationType → List Response → Payload Response
  | .read, responses => .multiRead responses
  | .unspecified, responses | .write, responses => .multiWrite responses

def process (platform : Platform) (state : StoreState) (zxid session time : Int64)
    (type : OperationType) : StoreRequest → Result StoreState (StoreState × Response)
  | single request =>
    match state.process platform zxid session time request with
    | .returned (after, response, _) => .returned (after, response)
    | .thrown exception after => .thrown exception after
    | .crashed => .crashed
    | .blocked => .blocked
  | multi txn =>
    match StoreRequestMultiTxn.loop platform zxid session time txn.operationType
      txn.concreteRequests state [] [] with
    | .returned (after, responses) => .returned (after, { payload := multiPayload type responses })
    | .thrown exception after => .thrown exception after
    | .crashed => .crashed
    | .blocked => .blocked

end StoreRequest

/-- The operation type of a decoded Multi. -/
def Request.operationType : Request → OperationType
  | .single _ => .unspecified
  | .multi type _ => type

/-- `shouldIncreaseZxid`, which lists neither GetACL nor a MultiRead. -/
def Request.shouldIncreaseZxid : Request → Bool
  | .single (.get ..) | .single (.setWatches _) | .single (.exists ..) | .single (.auth ..)
  | .single .heartbeat | .single (.list ..) => false
  | .single _ | .multi .. => true

/-- A call of `processRequest`. -/
structure Call where
  request : RequestForSession
  newLastZxid : Option Int64 := none
  checkAcl : Bool := true
  ignoreResponse : Bool := false
  env : Environment

/-- What `processRequest` leaves: the store and the responses it pushed to the queue. -/
abbrev Answered := KeeperStore × List ResponseForSession

/-- The store that a call leaves; an exception keeps what was done before it. -/
def Result.store : Result KeeperStore Answered → Option KeeperStore
  | .returned (after, _) => some after
  | .thrown _ after => some after
  | .crashed | .blocked => none

def Result.errors : Result KeeperStore Answered → Option (List Error)
  | .returned (_, answers) => some (answers.map (·.response.error))
  | .thrown .. | .crashed | .blocked => none

def Result.exception : Result KeeperStore Answered → Option Exception
  | .thrown exception _ => some exception
  | .returned _ | .crashed | .blocked => none

namespace Call

def setResponse (call : Call) (responses : List ResponseForSession) : List ResponseForSession :=
  if call.ignoreResponse then [] else responses

def answer (call : Call) (zxid : Int64) (response : Response) (createTime : Int64 := 0) :
    ResponseForSession :=
  { sessionId := call.request.sessionId
    xid := call.request.xid
    zxid := zxid
    requestCreatedTimeMs := createTime
    response := response }

end Call

def dropEphemeral (tree : DataTree) (path : Bytes) : DataTree :=
  (tree.modify (getParentPath path) fun parent =>
    { parent with
      children := parent.children.erase (getBaseName path)
      stat := { parent.stat with numChildren := parent.stat.numChildren - 1 } }).erase path

namespace KeeperStore

def cleanEphemeralNodes (env : Environment) (store : KeeperStore) (session : Int64) : Answered :=
  match store.ephemerals.lookup session with
  | none => (store, [])
  | some ephemeralPaths =>
    let paths := env.ephemeralPaths.list session ephemeralPaths
    let deleteWatches (state : WatchManager × List ResponseForSession) (path : Bytes) :=
      let (after, responses) := state.1.processEvent env path .deleted
      (after, state.2 ++ responses)
    let (watchManager, responses) := paths.foldl deleteWatches (store.watchManager, [])
    ({ store with
        dataTree := paths.foldl dropEphemeral store.dataTree
        ephemerals := store.ephemerals.erase session
        watchManager := watchManager },
      responses)

def closeSession (store : KeeperStore) (call : Call) : Result KeeperStore Answered :=
  let session := call.request.sessionId
  let (cleaned, watchResponses) := store.cleanEphemeralNodes call.env session
  match cleaned.sessionManager.expireSession session with
  | none => .crashed
  | some sessionManager =>
    let zxid := if call.newLastZxid.isSome then cleaned.zxid else cleaned.zxid + 1
    .returned
      ({ cleaned with
          watchManager := cleaned.watchManager.cleanDeadWatches call.env session
          sessionAndAuth := cleaned.sessionAndAuth.erase session
          sessionManager := sessionManager
          zxid := zxid },
        call.setResponse (watchResponses ++ [call.answer cleaned.zxid { payload := .close }]))

def newSession (store : KeeperStore) (call : Call) (request : NewSessionRequest) :
    Result KeeperStore Answered :=
  match store.sessionManager.getSessionID call.env.now request.sessionTimeoutMs.toInt64 with
  | none => .crashed
  | some sessionManager =>
    let payload := Payload.newSession request.internalId store.sessionManager.sessionIdCounter
      request.serverId true
    .returned
      ({ store with sessionManager := sessionManager, zxid := store.zxid + 1 },
        call.setResponse [call.answer store.zxid { payload }])

def updateSession (store : KeeperStore) (call : Call) (request : UpdateSessionRequest) :
    Result KeeperStore Answered :=
  match store.sessionManager.updateSessionTimeout call.env.now call.request.sessionId with
  | none => .crashed
  | some (alive, sessionManager) =>
    let response : Response :=
      { error := if alive then .zok else .zsessionexpired
        payload := .updateSession request.sessionId request.serverId alive }
    .returned
      ({ store with sessionManager := sessionManager, zxid := store.zxid + 1 },
        call.setResponse [call.answer store.zxid response])

def watchNodesInfo (store : KeeperStore) (request : SetWatchesRequest) (path : Bytes) :
    Option (Int64 × Int64) :=
  if path ∈ request.dataWatches then
    (store.dataTree.lookup path).map fun node => (node.stat.mzxid, node.stat.pzxid)
  else none

def setWatches (store : KeeperStore) (call : Call) (request : SetWatchesRequest) :
    Result KeeperStore Answered :=
  match store.watchManager.processRequestSetWatch call.request.sessionId request
    (store.watchNodesInfo request) with
  | none => .blocked
  | some (watchManager, watchResponses) =>
    .returned
      ({ store with watchManager := watchManager },
        call.setResponse
          (watchResponses ++ [call.answer store.zxid { payload := .setWatches }]))

def triggerWatches (env : Environment) (manager : WatchManager) :
    List (Bytes × OpNum) → WatchManager × List ResponseForSession
  | [] => (manager, [])
  | (path, opnum) :: rest =>
    let (after, responses) := manager.processWatches env path opnum
    let (last, more) := triggerWatches env after rest
    (last, responses ++ more)

def triggering (request : Request) (response : Response) : List (Bytes × OpNum) :=
  match request, response.payload with
  | .multi _ requests, .multiWrite responses =>
    if (responses.getLast?.map (·.error)) = some .zok then
      requests.map fun sub => (sub.getPath, sub.getOpNum)
    else []
  | .multi .., _ => []
  | .single request, _ => [(request.getPath, request.getOpNum)]

/-- Register or trigger watches once the response is known. -/
def updateWatches (env : Environment) (manager : WatchManager) (session : Int64)
    (request : Request) (response : Response) : WatchManager × List ResponseForSession :=
  if request.isReadRequest then
    if request.hasWatch ∧ (response.error = .zok ∨
        (response.error = .znonode ∧ request.getOpNum = .exists)) then
      (manager.registerWatches request.getPath session request.getOpNum, [])
    else (manager, [])
  else if response.error = .zok then
    triggerWatches env manager (triggering request response)
  else (manager, [])

def respond (platform : Platform) (store : KeeperStore) (call : Call) :
    Result StoreState (StoreState × Response) :=
  match StoreRequest.make call.request.request with
  | .error exception => .thrown exception store.toStoreState
  | .ok storeRequest =>
    let authorised : Except Exception Bool :=
      if call.checkAcl then storeRequest.checkAuth store.toStoreState call.request.sessionId
      else .ok true
    match authorised with
    | .error exception => .thrown exception store.toStoreState
    | .ok false =>
      let response := call.request.request.makeResponse
      .returned (store.toStoreState, { response with error := .znoauth })
    | .ok true =>
      storeRequest.process platform store.toStoreState store.zxid call.request.sessionId
        call.request.processTime call.request.request.operationType

/-- The last branch of `processRequest`. -/
def processStoreRequest (platform : Platform) (store : KeeperStore) (call : Call) :
    Result KeeperStore Answered :=
  match store.respond platform call with
  | .crashed => .crashed
  | .blocked => .blocked
  | .thrown exception state => .thrown exception { store with toStoreState := state }
  | .returned (state, response) =>
    let increases := call.newLastZxid.isNone && call.request.request.shouldIncreaseZxid
    let (watchManager, watchResponses) := updateWatches call.env store.watchManager
      call.request.sessionId call.request.request response
    .returned
      ({ store with
          toStoreState := state
          watchManager := watchManager
          zxid := if increases then store.zxid + 1 else store.zxid },
        call.setResponse
          (watchResponses ++ [call.answer store.zxid response call.request.createTime]))

/-- The branches of `processRequest` for a session that is alive. -/
def processSessionRequest (platform : Platform) (store : KeeperStore) (call : Call) :
    Result KeeperStore Answered :=
  match store.sessionManager.updateSessionExpirationTime call.env.now call.request.sessionId with
  | none => .crashed
  | some sessionManager =>
    let touched := { store with sessionManager := sessionManager }
    match call.request.request with
    | .single .heartbeat =>
      .returned (touched, call.setResponse [call.answer store.zxid { payload := .heartbeat }])
    | .single (.setWatches request) => touched.setWatches call request
    | .single _ | .multi .. => touched.processStoreRequest platform call

def dispatch (platform : Platform) (store : KeeperStore) (call : Call) :
    Result KeeperStore Answered :=
  match call.request.request with
  | .single .close => store.closeSession call
  | .single (.newSession request) => store.newSession call request
  | .single (.updateSession request) => store.updateSession call request
  | .single _ | .multi .. =>
    if !store.sessionManager.contains call.request.sessionId && call.newLastZxid.isNone then
      .returned (store, [])
    else store.processSessionRequest platform call

/-- `KeeperStore::processRequest`. -/
def processRequest (platform : Platform) (store : KeeperStore) (call : Call) :
    Result KeeperStore Answered :=
  match call.newLastZxid with
  | none => store.dispatch platform call
  | some zxid =>
    if store.zxid ≥ zxid then .thrown (.zxidNotIncreasing zxid store.zxid) store
    else dispatch platform { store with zxid := zxid } call

end KeeperStore

/-- `add_node` of `initializeSystemNodes`; `none` is a dereferenced null parent. -/
def addSystemNode (tree : DataTree) (path : Bytes) : Option DataTree :=
  if (tree.lookup path).isSome then some tree
  else
    let added := tree.insert path {}
    match added.lookup (getParentPath path) with
    | none => none
    | some _ =>
      some (added.modify (getParentPath path) fun parent =>
        { parent with children := insert (getBaseName path) parent.children })

def zookeeperSystemPath : Bytes := ascii "/zookeeper"
def zookeeperConfigNode : Bytes := ascii "/zookeeper/config"
def clickhouseKeeperSystemPath : Bytes := ascii "/keeper"
def clickhouseKeeperApiVersionPath : Bytes := ascii "/keeper/api_version"
def clickhouseKeeperApiFeatureFlagsPath : Bytes := ascii "/keeper/feature_flags"

/-- `CURRENT_KEEPER_API_VERSION` is 2 and `CURRENT_KEEPER_FEATURE_FLAGS` a single byte. -/
def currentKeeperApiVersion : Bytes := ascii "2"
def currentKeeperFeatureFlags : Bytes := [0xF0]

/-- What `initializeSystemNodes` does to the data tree. -/
def addSystemNodes (platform : Platform) (tree : DataTree) : Option DataTree :=
  if platform.compatibleModeZookeeper then
    (addSystemNode tree zookeeperSystemPath).bind (addSystemNode · zookeeperConfigNode)
  else
    ((addSystemNode tree clickhouseKeeperSystemPath).bind
      (addSystemNode · clickhouseKeeperApiVersionPath)).bind
        (addSystemNode · clickhouseKeeperApiFeatureFlagsPath) |>.map fun added =>
          (added.modify clickhouseKeeperApiVersionPath fun node =>
            { node with data := currentKeeperApiVersion }).modify
              clickhouseKeeperApiFeatureFlagsPath
              fun node => { node with data := currentKeeperFeatureFlags }

namespace KeeperStore

/-- The constructor of `KeeperStore`. -/
def new (deadSessionCheckPeriodMs : Int64) (superDigest : Bytes) : KeeperStore :=
  { dataTree := Finmap.singleton rootPath {}
    superDigest := superDigest
    sessionManager := { sessionExpiryQueue := { expirationInterval := deadSessionCheckPeriodMs } } }

def initializeSystemNodes (platform : Platform) (store : KeeperStore) : Option KeeperStore :=
  (addSystemNodes platform store.dataTree).map fun tree => { store with dataTree := tree }

def next (platform : Platform) (store : KeeperStore) (call : Call) : Option KeeperStore :=
  (store.processRequest platform call).store

/-- A store on which the server has started from an empty directory. -/
def Started (platform : Platform) (start : KeeperStore) : Prop :=
  ∃ interval digest, (new interval digest).initializeSystemNodes platform = some start

end KeeperStore

def KeeperStore.sample : KeeperStore :=
  ((new 500 []).initializeSystemNodes .sample).get (by decide)

theorem KeeperStore.started_sample : Started .sample sample :=
  ⟨500, [], (Option.some_get _).symm⟩

def Call.sample (session : Int64) (request : Request) : Call where
  request := { sessionId := session, xid := 1, request := request }
  env := .sorted

def Call.sampleSession : Call :=
  sample 0 (.single (.newSession { internalId := 1, sessionTimeoutMs := 1000, serverId := 1 }))

end RaftKeeper
