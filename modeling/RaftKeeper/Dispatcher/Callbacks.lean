import RaftKeeper.Processor.RequestProcessor

/-!
# Connections and their callbacks

A handler registers itself for the response to its handshake under the id of the request, a number
of the server's own counter or the id of the session, and with a successful response for the user
responses of its session. Both tables are changed under one lock, so each operation is a step;
`destroyMe` takes the lock twice. A call of a handler that has been deleted is undefined behaviour,
here `none`.
-/

namespace RaftKeeper

/-- The connection of a client; `internalId` is set by a handshake without a session. -/
structure ConnectionHandler where
  internalId : Int64 := 0
  sessionId : Int64 := 0
  handshakeDone : Bool := false
  /-- `destroyMe` has unregistered the user callback. -/
  destroying : Bool := false
deriving DecidableEq

/-- The callback tables of a server, which give the number of the handler that is called. -/
structure KeeperDispatcher where
  newSessionInternalIdCounter : Int64
  sessionResponseCallbacks : Dict Int64 ℕ := ∅
  userResponseCallbacks : Dict Int64 ℕ := ∅
  /-- The handlers that are not deleted, by a number that no other connection gets. -/
  handlers : Dict ℕ ConnectionHandler := ∅
  accepted : ℕ := 0

/-- The response to a NewSession or an UpdateSession. -/
structure SessionResponse where
  id : Int64
  sessionId : Int64
  success : Bool
  isReconnected : Bool
deriving DecidableEq

/-- Nothing for the responses to other requests. -/
def Response.session? (response : Response) : Option SessionResponse :=
  match response.payload with
  | .newSession internalId sessionId _ success =>
    some { id := internalId, sessionId, success, isReconnected := false }
  | .updateSession sessionId _ success =>
    some { id := sessionId, sessionId, success, isReconnected := true }
  | _ => none

namespace KeeperDispatcher

variable {dispatcher after : KeeperDispatcher} {connection : ℕ} {session id : Int64}

def accept (dispatcher : KeeperDispatcher) : KeeperDispatcher :=
  { dispatcher with
    handlers := dispatcher.handlers.insert dispatcher.accepted {}
    accepted := dispatcher.accepted + 1 }

def isLocalSession (dispatcher : KeeperDispatcher) (session : Int64) : Bool :=
  (dispatcher.userResponseCallbacks.lookup session).isSome

def unregisterUserResponseCallBack (dispatcher : KeeperDispatcher) (session : Int64) :
    KeeperDispatcher :=
  { dispatcher with userResponseCallbacks := dispatcher.userResponseCallbacks.erase session }

def unRegisterSessionResponseCallback (dispatcher : KeeperDispatcher) (id : Int64) :
    KeeperDispatcher :=
  { dispatcher with sessionResponseCallbacks := dispatcher.sessionResponseCallbacks.erase id }

/-- `registerSessionResponseCallback` throws if the id is taken. -/
def registerSessionResponseCallback (dispatcher : KeeperDispatcher) (id : Int64) (connection : ℕ) :
    Option KeeperDispatcher :=
  match dispatcher.sessionResponseCallbacks.lookup id with
  | some _ => none
  | none =>
    some { dispatcher with
      sessionResponseCallbacks := dispatcher.sessionResponseCallbacks.insert id connection }

/-- `registerUserResponseCallBackWithoutLock`: a callback that is there stays. Where it throws, the
table is as it was. -/
def registerUserResponseCallBack (dispatcher : KeeperDispatcher) (session : Int64)
    (connection : ℕ) : KeeperDispatcher :=
  if session = 0 then dispatcher
  else
    match dispatcher.userResponseCallbacks.lookup session with
    | some _ => dispatcher
    | none =>
      { dispatcher with
        userResponseCallbacks := dispatcher.userResponseCallbacks.insert session connection }

def beginDestroy (dispatcher : KeeperDispatcher) (connection : ℕ) : Option KeeperDispatcher :=
  match dispatcher.handlers.lookup connection with
  | none => none
  | some handler =>
    if handler.destroying then none
    else
      let unregistered :=
        if handler.sessionId ≠ 0 then dispatcher.unregisterUserResponseCallBack handler.sessionId
        else dispatcher
      some { unregistered with
        handlers := dispatcher.handlers.insert connection { handler with destroying := true } }

def endDestroy (dispatcher : KeeperDispatcher) (connection : ℕ) : Option KeeperDispatcher :=
  match dispatcher.handlers.lookup connection with
  | none => none
  | some handler =>
    if handler.destroying then
      let unregistered := dispatcher.unRegisterSessionResponseCallback
        (if handler.handshakeDone then handler.sessionId else handler.internalId)
      some { unregistered with handlers := dispatcher.handlers.erase connection }
    else none

/-- The request of a handshake and its id; 0 is no session. -/
def handshakeRequest (myId : Int32) (internalId previousSessionId : Int64) (timeoutMs : Int32) :
    RequestForSession :=
  if previousSessionId = 0 then
    { sessionId := internalId
      xid := newSessionXid
      request := .single (.newSession
        { internalId, sessionTimeoutMs := timeoutMs, serverId := myId }) }
  else
    { sessionId := previousSessionId
      xid := updateSessionXid
      request := .single (.updateSession
        { sessionId := previousSessionId, sessionTimeoutMs := timeoutMs.toInt64,
          serverId := myId }) }

/-- `ConnectionHandler::receiveHandshake` from the choice of the id on, and the request that is
pushed. As long as the handshake is not done every frame is taken for one. If the id is taken,
the handler destroys itself. -/
def receiveHandshake (dispatcher : KeeperDispatcher) (myId : Int32) (clusterNodeCount : Int64)
    (connection : ℕ) (previousSessionId : Int64) (timeoutMs : Int32) :
    Option (KeeperDispatcher × Option RequestForSession) :=
  match dispatcher.handlers.lookup connection with
  | none => none
  | some handler =>
    if handler.handshakeDone || handler.destroying then none
    else
      let request := handshakeRequest myId dispatcher.newSessionInternalIdCounter
        previousSessionId timeoutMs
      let counted :=
        if previousSessionId = 0 then
          { dispatcher with newSessionInternalIdCounter :=
              dispatcher.newSessionInternalIdCounter + clusterNodeCount }
        else dispatcher
      match counted.registerSessionResponseCallback request.sessionId connection with
      | none => (counted.beginDestroy connection).map (·, none)
      | some registered =>
        some ({ registered with
          handlers := registered.handlers.insert connection
            { handler with internalId := request.sessionId } }, some request)

def sendSessionResponseToClient (dispatcher : KeeperDispatcher) (connection : ℕ)
    (handler : ConnectionHandler) (response : SessionResponse) : KeeperDispatcher :=
  if response.success then
    let done :=
      { dispatcher with
        handlers := dispatcher.handlers.insert connection
          { handler with sessionId := response.sessionId, handshakeDone := true } }
    (done.unRegisterSessionResponseCallback response.id).registerUserResponseCallBack
      response.sessionId connection
  else dispatcher

def invokeSessionResponse (dispatcher : KeeperDispatcher) (route : Int64)
    (response : SessionResponse) : Option (KeeperDispatcher × Option ℕ) :=
  match dispatcher.sessionResponseCallbacks.lookup route with
  | none => some (dispatcher, none)
  | some connection =>
    (dispatcher.handlers.lookup connection).map fun handler =>
      (dispatcher.sendSessionResponseToClient connection handler response, some connection)

def invokeUserResponse (dispatcher : KeeperDispatcher) (session : Int64) (isClose : Bool) :
    Option (KeeperDispatcher × Option ℕ) :=
  match dispatcher.userResponseCallbacks.lookup session with
  | none => some (dispatcher, none)
  | some connection =>
    (dispatcher.handlers.lookup connection).map fun _ =>
      (if isClose then dispatcher.unregisterUserResponseCallBack session else dispatcher,
        some connection)

theorem receiveHandshake_spec {myId timeoutMs : Int32} {clusterNodeCount previous : Int64}
    {sent : Option RequestForSession}
    (receives : dispatcher.receiveHandshake myId clusterNodeCount connection previous timeoutMs =
      some (after, sent)) :
    ∃ handler counter, dispatcher.handlers.lookup connection = some handler ∧
      (sent = none ∧
          { dispatcher with newSessionInternalIdCounter := counter }.beginDestroy connection =
            some after ∨
        ∃ request,
          request = handshakeRequest myId dispatcher.newSessionInternalIdCounter previous
            timeoutMs ∧
          sent = some request ∧
          dispatcher.sessionResponseCallbacks.lookup request.sessionId = none ∧
          after =
            { dispatcher with
              newSessionInternalIdCounter := counter
              sessionResponseCallbacks :=
                dispatcher.sessionResponseCallbacks.insert request.sessionId connection
              handlers := dispatcher.handlers.insert connection
                { handler with internalId := request.sessionId } }) := by
  rw [receiveHandshake] at receives
  split at receives
  · cases receives
  next handler isHandler =>
    split at receives
    · cases receives
    · dsimp only at receives
      have isCounted : ∃ counter, (if previous = 0 then
            { dispatcher with newSessionInternalIdCounter :=
                dispatcher.newSessionInternalIdCounter + clusterNodeCount }
          else dispatcher) = { dispatcher with newSessionInternalIdCounter := counter } := by
        split
        · exact ⟨_, rfl⟩
        · exact ⟨dispatcher.newSessionInternalIdCounter, rfl⟩
      rcases isCounted with ⟨counter, isCounted⟩
      rw [isCounted] at receives
      refine ⟨handler, counter, isHandler, ?_⟩
      split at receives
      · rcases Option.map_eq_some_iff.mp receives with ⟨destroyed, destroys, ⟨⟩⟩
        exact .inl ⟨rfl, destroys⟩
      next registered registers =>
        cases receives
        rw [registerSessionResponseCallback] at registers
        split at registers
        · cases registers
        next absent =>
          cases registers
          exact .inr ⟨_, rfl, rfl, absent, rfl⟩

end KeeperDispatcher

end RaftKeeper
