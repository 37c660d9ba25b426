import RaftKeeper.Lib.Run
import RaftKeeper.Store.Effect

/-!
# The replicated state machine

`Replicated` is the part of the store that has to be the same on every server: without the watches
and the expiry times. `apply` is what one log entry does to it; it does not see the clock, the order
in which a hash table is walked or who watches what. `processRequest` refines `apply`.
-/

namespace RaftKeeper

open Option StoreRequest

/-- What `serializeKeeperRequest` writes to the log. -/
structure LogEntry where
  sessionId : Int64
  xid : Int32
  request : Request
  processTime : Int64

/-- What the client gets for a request. -/
structure Reply where
  zxid : Int64
  response : Response

/-- What every server has to have in common. -/
structure Replicated extends StoreState where
  zxid : Int64
  sessionAndTimeout : Dict Int64 Int64
  sessionIdCounter : Int64

def Call.entry (call : Call) : LogEntry where
  sessionId := call.request.sessionId
  xid := call.request.xid
  request := call.request.request
  processTime := call.request.processTime

/-- The call is made by `RequestProcessor` or by the replay of the log. -/
@[mk_iff]
structure Call.Served (call : Call) : Prop where
  noZxid : call.newLastZxid = none
  checked : call.checkAcl = true

instance {call : Call} : Decidable call.Served :=
  decidable_of_iff' _ (Call.served_iff call)

/-- What a store has in common with those of other servers. -/
def KeeperStore.replicated (store : KeeperStore) : Replicated where
  toStoreState := store.toStoreState
  zxid := store.zxid
  sessionAndTimeout := store.sessionManager.sessionAndTimeout
  sessionIdCounter := store.sessionManager.sessionIdCounter

/-- The reply comes last, after the watch events. -/
def Result.reply : Result KeeperStore Answered → Option Reply
  | .returned (_, answers) => answers.getLast?.map fun answer => ⟨answer.zxid, answer.response⟩
  | .thrown .. | .crashed | .blocked => none

theorem lookup_dropEphemeral (tree : DataTree) (path other : Bytes) :
    (dropEphemeral tree path).lookup other = if other = path then none
      else if other = getParentPath path then
        (tree.lookup other).map fun parent =>
          { parent with
            children := parent.children.erase (getBaseName path)
            stat := { parent.stat with numChildren := parent.stat.numChildren - 1 } }
      else tree.lookup other := by
  rw [dropEphemeral, Finmap.lookup_erase_ite, Finmap.lookup_modify]
  split
  · rfl
  · split
    · rename_i isParent
      rw [isParent]
    · rfl

instance : RightCommutative dropEphemeral := by
  constructor
  intro tree left right
  apply Finmap.ext_lookup
  intro other
  simp only [lookup_dropEphemeral]
  by_cases isLeft : other = left
  · simp [isLeft]
  · by_cases isRight : other = right
    · simp [isRight]
    · by_cases leftParent : other = getParentPath left
      · by_cases rightParent : other = getParentPath right
        · simp only [isLeft, isRight, if_false, if_pos leftParent, if_pos rightParent, map_map]
          congr 1
          funext parent
          simp [Finset.erase_right_comm]
        · simp [isLeft, isRight, rightParent]
      · simp [isLeft, isRight, leftParent]

namespace Replicated

def dropEphemerals (tree : DataTree) (paths : Finset Bytes) : DataTree :=
  paths.val.foldl dropEphemeral tree

theorem foldl_dropEphemeral_list (order : Enumeration Int64 Bytes) (session : Int64)
    (tree : DataTree) (paths : Finset Bytes) :
    (order.list session paths).foldl dropEphemeral tree = dropEphemerals tree paths := by
  rw [dropEphemerals, ← order.coe_list session, Multiset.coe_foldl]

def closeSession (replica : Replicated) (session : Int64) : Replicated :=
  { replica with
    dataTree := dropEphemerals replica.dataTree (ephemeralsOf replica.ephemerals session)
    ephemerals := replica.ephemerals.erase session
    sessionAndAuth := replica.sessionAndAuth.erase session
    sessionAndTimeout := replica.sessionAndTimeout.erase session
    zxid := replica.zxid + 1 }

def newSession (replica : Replicated) (request : NewSessionRequest) : Replicated :=
  { replica with
    sessionAndTimeout := SessionManager.emplaceTimeout replica.sessionAndTimeout
      replica.sessionIdCounter request.sessionTimeoutMs.toInt64
    sessionIdCounter := replica.sessionIdCounter + 1
    zxid := replica.zxid + 1 }

/-- The session is alive. -/
def contains (replica : Replicated) (session : Int64) : Bool :=
  (replica.sessionAndTimeout.lookup session).isSome

def respond (platform : Platform) (replica : Replicated) (entry : LogEntry) :
    Result StoreState (StoreState × Response) :=
  match make entry.request with
  | .error exception => .thrown exception replica.toStoreState
  | .ok storeRequest =>
    match storeRequest.checkAuth replica.toStoreState entry.sessionId with
    | .error exception => .thrown exception replica.toStoreState
    | .ok false =>
      .returned (replica.toStoreState, { entry.request.makeResponse with error := .znoauth })
    | .ok true =>
      storeRequest.process platform replica.toStoreState replica.zxid entry.sessionId
        entry.processTime entry.request.operationType

theorem respond_final {platform : Platform} {replica : Replicated} {entry : LogEntry}
    {state : StoreState} (ends : (replica.respond platform entry).final = some state) :
    state = replica.toStoreState ∨ ∃ storeRequest,
      make entry.request = .ok storeRequest ∧
        (storeRequest.process platform replica.toStoreState replica.zxid entry.sessionId
          entry.processTime entry.request.operationType).final = some state := by
  unfold respond at ends
  cases made : make entry.request with
  | error exception =>
    rw [made] at ends
    cases ends
    exact .inl rfl
  | ok storeRequest =>
    simp only [made] at ends
    split at ends
    · cases ends
      exact .inl rfl
    · cases ends
      exact .inl rfl
    · exact .inr ⟨storeRequest, rfl, ends⟩

/-- The request is executed on behalf of a session that is alive. -/
def applyRequest (platform : Platform) (replica : Replicated) (entry : LogEntry) :
    Option (Replicated × Option Reply) :=
  match replica.respond platform entry with
  | .returned (state, response) =>
    let zxid := if entry.request.shouldIncreaseZxid then replica.zxid + 1 else replica.zxid
    some ({ replica with toStoreState := state, zxid := zxid }, some ⟨replica.zxid, response⟩)
  | .thrown _ state => some ({ replica with toStoreState := state }, none)
  | .crashed | .blocked => none

/-- What a log entry does, and the reply to it; `none` when the process does not survive it. -/
def apply (platform : Platform) (replica : Replicated) (entry : LogEntry) :
    Option (Replicated × Option Reply) :=
  match entry.request with
  | .single .close =>
    some (replica.closeSession entry.sessionId, some ⟨replica.zxid, { payload := .close }⟩)
  | .single (.newSession request) =>
    some (replica.newSession request,
      some ⟨replica.zxid,
        { payload := .newSession request.internalId replica.sessionIdCounter request.serverId
            true }⟩)
  | .single (.updateSession request) =>
    let alive := replica.contains entry.sessionId
    some ({ replica with zxid := replica.zxid + 1 },
      some ⟨replica.zxid,
        { error := if alive then .zok else .zsessionexpired
          payload := .updateSession request.sessionId request.serverId alive }⟩)
  | .single _ | .multi .. =>
    if replica.contains entry.sessionId then replica.applyRequest platform entry
    else some (replica, none)

/-- Everything that a log entry can do. -/
inductive Applied (platform : Platform) (replica : Replicated) (entry : LogEntry) :
    Replicated → Option Reply → Prop
  | close (isClose : entry.request = .single .close) :
      Applied platform replica entry (replica.closeSession entry.sessionId)
        (some ⟨replica.zxid, { payload := .close }⟩)
  | newSession {request : NewSessionRequest}
      (isOpening : entry.request = .single (.newSession request)) :
      Applied platform replica entry (replica.newSession request)
        (some ⟨replica.zxid,
          { payload := .newSession request.internalId replica.sessionIdCounter request.serverId
              true }⟩)
  | updateSession {request : UpdateSessionRequest} (response : Response)
      (isUpdate : entry.request = .single (.updateSession request)) :
      Applied platform replica entry { replica with zxid := replica.zxid + 1 }
        (some ⟨replica.zxid, response⟩)
  | returned {state : StoreState} {response : Response}
      (notClose : entry.request ≠ .single .close)
      (notOpening : ∀ request, entry.request ≠ .single (.newSession request))
      (isAlive : replica.contains entry.sessionId = true)
      (responds : replica.respond platform entry = .returned (state, response)) :
      Applied platform replica entry
        { replica with
          toStoreState := state
          zxid := if entry.request.shouldIncreaseZxid then replica.zxid + 1 else replica.zxid }
        (some ⟨replica.zxid, response⟩)
  | thrown {exception : Exception} {state : StoreState}
      (notClose : entry.request ≠ .single .close)
      (notOpening : ∀ request, entry.request ≠ .single (.newSession request))
      (isAlive : replica.contains entry.sessionId = true)
      (throws : replica.respond platform entry = .thrown exception state) :
      Applied platform replica entry { replica with toStoreState := state } none
  | dropped (notClose : entry.request ≠ .single .close)
      (notOpening : ∀ request, entry.request ≠ .single (.newSession request))
      (isDead : replica.contains entry.sessionId = false) :
      Applied platform replica entry replica none

theorem applied_of_apply {platform : Platform} {replica after : Replicated} {entry : LogEntry}
    {reply : Option Reply} (applies : replica.apply platform entry = some (after, reply)) :
    Applied platform replica entry after reply := by
  have ordinary (notClose : entry.request ≠ .single .close)
      (notOpening : ∀ request, entry.request ≠ .single (.newSession request))
      (applies : (if replica.contains entry.sessionId then replica.applyRequest platform entry
        else some (replica, none)) = some (after, reply)) :
      Applied platform replica entry after reply := by
    split at applies
    next isAlive =>
      rw [applyRequest] at applies
      split at applies
      next responds =>
        cases applies
        exact .returned notClose notOpening isAlive responds
      next throws =>
        cases applies
        exact .thrown notClose notOpening isAlive throws
      next => cases applies
      next => cases applies
    next isDead =>
      cases applies
      exact .dropped notClose notOpening (by simpa using isDead)
  cases isRequest : entry.request with
  | multi kind requests =>
    simp only [apply, isRequest] at applies
    exact ordinary (by rw [isRequest]; nofun) (by rw [isRequest]; nofun) applies
  | single request =>
    cases request with
    | close =>
      simp only [apply, isRequest] at applies
      cases applies
      exact .close isRequest
    | newSession request =>
      simp only [apply, isRequest] at applies
      cases applies
      exact .newSession isRequest
    | updateSession request =>
      simp only [apply, isRequest] at applies
      cases applies
      exact .updateSession _ isRequest
    | _ =>
      simp only [apply, isRequest] at applies
      exact ordinary (by rw [isRequest]; nofun) (by rw [isRequest]; nofun) applies

end Replicated

namespace SessionManager

theorem updateSessionExpirationTime_eq_some {manager after : SessionManager} {now session : Int64}
    (updated : manager.updateSessionExpirationTime now session = some after) :
    ∃ queue, after = { manager with sessionExpiryQueue := queue } := by
  unfold updateSessionExpirationTime at updated
  split at updated
  · cases updated
    exact ⟨_, rfl⟩
  · rcases map_eq_some_iff.mp updated with ⟨queue, _, rfl⟩
    exact ⟨queue, rfl⟩

end SessionManager

namespace KeeperStore

variable {platform : Platform} {store after : KeeperStore} {call : Call}

/-- `result` leaves what the state machine leaves, and replies what it replies. -/
def Refines (call : Call) (result : Result KeeperStore Answered)
    (spec : Option (Replicated × Option Reply)) : Prop :=
  ∀ after, result.store = some after → ∃ reply, spec = some (after.replicated, reply) ∧
    (call.ignoreResponse = false → result.reply = reply)

theorem refines_of_noStore {result : Result KeeperStore Answered}
    {spec : Option (Replicated × Option Reply)} (noStore : result.store = none) :
    Refines call result spec := by
  intro after isAfter
  simp [noStore] at isAfter

theorem refines_returned (response : Response) (zxid createTime : Int64)
    (watchResponses : List ResponseForSession) :
    Refines call
      (.returned (store, call.setResponse (watchResponses ++
        [call.answer zxid response createTime])))
      (some (store.replicated, some ⟨zxid, response⟩)) := by
  intro after isAfter
  cases isAfter
  refine ⟨_, rfl, ?_⟩
  intro answersSent
  simp [Result.reply, Call.setResponse, answersSent, Call.answer]

theorem respond_replicated (served : call.Served) :
    store.respond platform call = store.replicated.respond platform call.entry := by
  simp only [respond, Replicated.respond, served.checked, if_true]
  rfl

theorem processStoreRequest_refines (served : call.Served) :
    Refines call (store.processStoreRequest platform call)
      (store.replicated.applyRequest platform call.entry) := by
  unfold processStoreRequest Replicated.applyRequest
  rw [respond_replicated served]
  cases store.replicated.respond platform call.entry with
  | returned value =>
    simp only [served.noZxid, isNone_none, Bool.true_and]
    exact refines_returned _ _ _ _
  | thrown exception state =>
    intro after isAfter
    cases isAfter
    exact ⟨none, rfl, fun _ => rfl⟩
  | crashed | blocked => exact refines_of_noStore rfl

theorem applyRequest_of_noop {request : SingleRequest} {replica : Replicated}
    (isSingle : call.request.request = .single request)
    (noop : request = .heartbeat ∨ ∃ watches, request = .setWatches watches) :
    replica.applyRequest platform call.entry =
      some (replica, some ⟨replica.zxid, request.makeResponse⟩) := by
  rcases noop with rfl | ⟨watches, rfl⟩ <;>
    simp [Replicated.applyRequest, Replicated.respond, Call.entry, isSingle, make,
      checkAuth, StoreState.checkAuth, process, StoreState.process,
      Request.shouldIncreaseZxid]

theorem processSessionRequest_refines (served : call.Served) :
    Refines call (store.processSessionRequest platform call)
      (store.replicated.applyRequest platform call.entry) := by
  unfold processSessionRequest
  cases updated : store.sessionManager.updateSessionExpirationTime call.env.now
    call.request.sessionId with
  | none => exact refines_of_noStore rfl
  | some manager =>
    rcases SessionManager.updateSessionExpirationTime_eq_some updated with ⟨queue, rfl⟩
    have same : store.replicated = ({ store with
        sessionManager := { store.sessionManager with sessionExpiryQueue := queue } } :
          KeeperStore).replicated := rfl
    rw [same]
    dsimp only
    split
    · rename_i isHeartbeat
      rw [applyRequest_of_noop isHeartbeat (.inl rfl)]
      exact refines_returned _ _ _ []
    · rename_i isSetWatches
      rw [applyRequest_of_noop isSetWatches (.inr ⟨_, rfl⟩)]
      unfold setWatches
      dsimp only
      split
      · exact refines_of_noStore rfl
      · exact refines_returned _ _ _ _
    · exact processStoreRequest_refines served
    · exact processStoreRequest_refines served

theorem closeSession_refines (served : call.Served) :
    Refines call (store.closeSession call)
      (some (store.replicated.closeSession call.request.sessionId,
        some ⟨store.zxid, { payload := .close }⟩)) := by
  rcases cleanEphemeralNodes_spec store call.env call.request.sessionId with
    ⟨watchManager, responses, cleaned⟩
  rw [Replicated.foldl_dropEphemeral_list] at cleaned
  simp only [closeSession, cleaned, served.noZxid]
  cases expired : store.sessionManager.expireSession call.request.sessionId with
  | none => exact refines_of_noStore rfl
  | some manager =>
    rcases map_eq_some_iff.mp expired with ⟨queue, _, rfl⟩
    exact refines_returned _ _ _ responses

theorem newSession_refines (request : NewSessionRequest) :
    Refines call (store.newSession call request)
      (some (store.replicated.newSession request,
        some ⟨store.zxid,
          { payload := .newSession request.internalId store.sessionManager.sessionIdCounter
              request.serverId true }⟩)) := by
  unfold newSession
  cases opened : store.sessionManager.getSessionID call.env.now
    request.sessionTimeoutMs.toInt64 with
  | none => exact refines_of_noStore rfl
  | some manager =>
    rcases map_eq_some_iff.mp opened with ⟨queue, _, rfl⟩
    exact refines_returned _ _ _ []

theorem updateSession_refines (request : UpdateSessionRequest) :
    Refines call (store.updateSession call request)
      (some ({ store.replicated with zxid := store.zxid + 1 },
        some ⟨store.zxid,
          { error := if store.replicated.contains call.request.sessionId then .zok
              else .zsessionexpired
            payload := .updateSession request.sessionId request.serverId
              (store.replicated.contains call.request.sessionId) }⟩)) := by
  unfold updateSession
  cases updated : store.sessionManager.updateSessionTimeout call.env.now call.request.sessionId with
  | none => exact refines_of_noStore rfl
  | some pair =>
    rcases map_eq_some_iff.mp updated with ⟨manager, renewed, rfl⟩
    rcases SessionManager.updateSessionExpirationTime_eq_some renewed with ⟨queue, rfl⟩
    exact refines_returned _ _ _ []

theorem processRequest_refines (served : call.Served) :
    Refines call (store.processRequest platform call)
      (store.replicated.apply platform call.entry) := by
  have ordinary : Refines call
      (if !store.sessionManager.contains call.request.sessionId && call.newLastZxid.isNone then
        .returned (store, []) else store.processSessionRequest platform call)
      (if store.replicated.contains call.request.sessionId then
        store.replicated.applyRequest platform call.entry else some (store.replicated, none)) := by
    rw [served.noZxid]
    cases alive : store.sessionManager.contains call.request.sessionId with
    | false =>
      have dead : store.replicated.contains call.request.sessionId = false := alive
      rw [dead]
      intro after isAfter
      cases isAfter
      exact ⟨none, rfl, fun _ => rfl⟩
    | true =>
      have live : store.replicated.contains call.request.sessionId = true := alive
      rw [live]
      exact processSessionRequest_refines served
  have dispatched : store.processRequest platform call = store.dispatch platform call := by
    simp only [processRequest, served.noZxid]
  have sameRequest : call.entry.request = call.request.request := rfl
  rw [dispatched]
  unfold dispatch Replicated.apply
  rw [sameRequest]
  cases call.request.request with
  | multi type requests => exact ordinary
  | single request =>
    cases request with
    | close => exact closeSession_refines served
    | newSession request => exact newSession_refines request
    | updateSession request => exact updateSession_refines request
    | _ => exact ordinary

end KeeperStore

end RaftKeeper
