import RaftKeeper.Dispatcher.Callbacks
import RaftKeeper.StateMachine.CommittedLog
import RaftKeeper.Store.Sessions

/-!
# Responses to handshakes

The request of a handshake goes through the log, and every server looks for a callback under its id:
an internal id of the server that has pushed it, or the id of a session. Servers whose ids are
congruent modulo the size of the cluster use the same internal ids, and any of them may be the id of
a session. If no two handshakes under way have the same id, a connection gets its own response.
-/

namespace RaftKeeper

open KeeperDispatcher List Option

/-- A log entry with the connection that has sent it; nothing for entries of elsewhere. -/
structure LoggedRequest where
  entry : LogEntry
  sender : Option (Int32 × ℕ) := none

def Request.isSessionRequest : Request → Bool
  | .single (.newSession _) | .single (.updateSession _) => true
  | _ => false

/-- A response in `responses_queue`. -/
structure QueuedResponse where
  index : ℕ
  sessionId : Int64
  session? : Option SessionResponse
  isClose : Bool

/-- A server: how far it has applied the log, and the responses it has yet to deliver. -/
structure HandshakeServer where
  dispatcher : KeeperDispatcher
  replica : Replicated
  applied : ℕ := 0
  responses : List QueuedResponse := []

/-- A response that a connection was given, with the index of the log entry it answers. -/
structure Given where
  server : Int32
  connection : ℕ
  index : ℕ
  response : SessionResponse

/-- All servers, the session requests under way and the log that they share. -/
structure HandshakeCluster where
  servers : Dict Int32 HandshakeServer
  pushed : List LoggedRequest := []
  log : List LoggedRequest := []
  given : List Given := []

/-- The steps of the cluster; NuRaft may commit what was pushed in any order. -/
inductive HandshakeCall
  | accept (server : Int32)
  /-- The handshake finds a cluster of this size. -/
  | receiveHandshake (server : Int32) (clusterNodeCount : Int64) (connection : ℕ)
      (previousSessionId : Int64) (timeoutMs : Int32)
  | commit (position : ℕ)
  | commitOther (entry : LogEntry)
  | apply (server : Int32)
  | respond (server : Int32)
  | beginDestroy (server : Int32) (connection : ℕ)
  | endDestroy (server : Int32) (connection : ℕ)

def Reply.queued (reply : Reply) (index : ℕ) (entry : LogEntry) : QueuedResponse where
  index := index
  sessionId := entry.sessionId
  session? := if entry.request.isSessionRequest then reply.response.session? else none
  isClose := entry.request.isClose

def HandshakeServer.apply (platform : Platform) (log : List LoggedRequest)
    (server : HandshakeServer) : Option HandshakeServer :=
  (log[server.applied]?).bind fun logged =>
    (server.replica.apply platform logged.entry).map fun (replica, reply) =>
      { server with
        replica := replica
        applied := server.applied + 1
        responses := server.responses ++ reply.toList.map (·.queued server.applied logged.entry) }

namespace HandshakeCluster

def change (machine : HandshakeCluster) (id : Int32)
    (step : HandshakeServer → Option HandshakeServer) : Option HandshakeCluster :=
  (machine.servers.lookup id).bind fun server =>
    (step server).map fun changed => { machine with servers := machine.servers.insert id changed }

def receiveHandshake (machine : HandshakeCluster) (id : Int32) (clusterNodeCount : Int64)
    (connection : ℕ) (previousSessionId : Int64) (timeoutMs : Int32) : Option HandshakeCluster :=
  (machine.servers.lookup id).bind fun server =>
    (server.dispatcher.receiveHandshake id clusterNodeCount connection previousSessionId
      timeoutMs).map fun (dispatcher, sent) =>
        { machine with
          servers := machine.servers.insert id { server with dispatcher }
          pushed := machine.pushed ++ sent.toList.map fun request =>
            { entry := request.entry, sender := some (id, connection) } }

def respond (machine : HandshakeCluster) (id : Int32) : Option HandshakeCluster :=
  (machine.servers.lookup id).bind fun server =>
    match server.responses with
    | [] => none
    | response :: rest =>
      match response.session? with
      | none =>
        (server.dispatcher.invokeUserResponse response.sessionId response.isClose).map
          fun (dispatcher, _) =>
            { machine with
              servers := machine.servers.insert id
                { server with dispatcher, responses := rest } }
      | some session =>
        (server.dispatcher.invokeSessionResponse response.sessionId session).map
          fun (dispatcher, receiver) =>
            { machine with
              servers := machine.servers.insert id
                { server with dispatcher, responses := rest }
              given := machine.given ++ receiver.toList.map fun connection =>
                { server := id, connection, index := response.index, response := session } }

def next (platform : Platform) (machine : HandshakeCluster) :
    HandshakeCall → Option HandshakeCluster
  | .accept id =>
    machine.change id fun server =>
      some { server with dispatcher := server.dispatcher.accept }
  | .receiveHandshake id clusterNodeCount connection previousSessionId timeoutMs =>
    machine.receiveHandshake id clusterNodeCount connection previousSessionId timeoutMs
  | .commit position =>
    (machine.pushed[position]?).map fun request =>
      { machine with
        pushed := machine.pushed.eraseIdx position
        log := machine.log ++ [request] }
  | .commitOther entry =>
    if entry.request.isSessionRequest then none
    else some { machine with log := machine.log ++ [{ entry := entry }] }
  | .apply id => machine.change id (HandshakeServer.apply platform machine.log)
  | .respond id => machine.respond id
  | .beginDestroy id connection =>
    machine.change id fun server =>
      (server.dispatcher.beginDestroy connection).map fun dispatcher =>
        { server with dispatcher }
  | .endDestroy id connection =>
    machine.change id fun server =>
      (server.dispatcher.endDestroy connection).map fun dispatcher =>
        { server with dispatcher }

/-- Nothing with this id is under way to the server. -/
def Quiet (machine : HandshakeCluster) (server : HandshakeServer) (id : Int64) : Prop :=
  (∀ sent ∈ machine.pushed, sent.entry.sessionId ≠ id) ∧
    (∀ logged ∈ machine.log.drop server.applied, logged.entry.sessionId = id →
      logged.sender = none) ∧
    ∀ response ∈ server.responses, response.sessionId = id → response.session? = none

/-- A handshake begins with an id that no server waits for and of which nothing is under way to
its own server. -/
def Distinct (machine : HandshakeCluster) : HandshakeCall → Prop
  | .receiveHandshake id _ _ previousSessionId timeoutMs =>
    ∀ server ∈ machine.servers.lookup id,
      let request := handshakeRequest id
        server.dispatcher.newSessionInternalIdCounter previousSessionId timeoutMs
      machine.Quiet server request.sessionId ∧
        ∀ otherId other, machine.servers.lookup otherId = some other →
          other.dispatcher.sessionResponseCallbacks.lookup request.sessionId = none
  | _ => True

instance (machine : HandshakeCluster) : DecidablePred machine.Distinct
  | .accept _ | .commit _ | .commitOther _ | .apply _ | .respond _ | .beginDestroy _ _
  | .endDestroy _ _ => .isTrue trivial
  | .receiveHandshake id .. => by
    unfold Distinct Quiet
    dsimp only
    infer_instance

def stateAt (platform : Platform) (initial : Replicated) (log : List LoggedRequest) (index : ℕ) :
    Option Replicated :=
  runFrom (Replicated.applyEntry platform) initial ((log.take index).map (·.entry))

end HandshakeCluster

open HandshakeCluster in
/-- The response is the reply to its entry in the state that the entries before it leave. -/
def QueuedResponse.Answers (platform : Platform) (initial : Replicated) (log : List LoggedRequest)
    (response : QueuedResponse) : Prop :=
  ∃ logged replica after reply,
    log[response.index]? = some logged ∧
      stateAt platform initial log response.index = some replica ∧
      replica.apply platform logged.entry = some (after, some reply) ∧
      response = reply.queued response.index logged.entry

namespace KeeperDispatcher

variable {dispatcher after : KeeperDispatcher} {connection : ℕ} {session : Int64}

def Forgets (dispatcher after : KeeperDispatcher) : Prop :=
  ∀ session connection, after.sessionResponseCallbacks.lookup session = some connection →
    dispatcher.sessionResponseCallbacks.lookup session = some connection

theorem forgets_of_eq
    (isSame : after.sessionResponseCallbacks = dispatcher.sessionResponseCallbacks) :
    dispatcher.Forgets after := by
  intro session connection isCallback
  rw [← isSame, isCallback]

theorem forgets_of_erase
    (isErased : after.sessionResponseCallbacks = dispatcher.sessionResponseCallbacks.erase
      session) :
    dispatcher.Forgets after := by
  intro other connection isCallback
  rw [isErased, Finmap.lookup_erase_eq_some] at isCallback
  exact isCallback.2

theorem forgets_beginDestroy (destroys : dispatcher.beginDestroy connection = some after) :
    dispatcher.Forgets after := by
  apply forgets_of_eq
  rw [beginDestroy] at destroys
  split at destroys
  · cases destroys
  · rcases ite_none_left_eq_some.mp destroys with ⟨_, destroys⟩
    cases destroys
    dsimp only
    split <;> rfl

theorem forgets_endDestroy (destroys : dispatcher.endDestroy connection = some after) :
    dispatcher.Forgets after := by
  rw [endDestroy] at destroys
  split at destroys
  · cases destroys
  · rcases ite_none_right_eq_some.mp destroys with ⟨_, destroys⟩
    cases destroys
    exact forgets_of_erase rfl

variable {receiver : Option ℕ}

theorem forgets_invokeUserResponse {isClose : Bool}
    (invokes : dispatcher.invokeUserResponse session isClose = some (after, receiver)) :
    dispatcher.Forgets after := by
  apply forgets_of_eq
  rw [invokeUserResponse] at invokes
  split at invokes
  · cases invokes
    rfl
  · rcases map_eq_some_iff.mp invokes with ⟨_, _, isAfter⟩
    cases isAfter
    split <;> rfl

theorem forgets_sendSessionResponseToClient (handler : ConnectionHandler)
    (response : SessionResponse) :
    dispatcher.Forgets (dispatcher.sendSessionResponseToClient connection handler response) := by
  rw [sendSessionResponseToClient]
  split
  · apply @forgets_of_erase _ _ response.id
    rw [registerUserResponseCallBack]
    split
    · rfl
    · split <;> rfl
  · exact forgets_of_eq rfl

theorem invokeSessionResponse_spec {response : SessionResponse}
    (invokes : dispatcher.invokeSessionResponse session response = some (after, receiver)) :
    dispatcher.Forgets after ∧ dispatcher.sessionResponseCallbacks.lookup session = receiver := by
  rw [invokeSessionResponse] at invokes
  split at invokes
  next absent =>
    cases invokes
    exact ⟨forgets_of_eq rfl, absent⟩
  next connection isCallback =>
    rcases map_eq_some_iff.mp invokes with ⟨handler, _, isAfter⟩
    cases isAfter
    exact ⟨forgets_sendSessionResponseToClient handler response, isCallback⟩

end KeeperDispatcher

section

variable {platform : Platform} {replica after : Replicated} {entry : LogEntry}

theorem Replicated.session_apply {reply : Reply} {response : SessionResponse} {index : ℕ}
    (applies : replica.apply platform entry = some (after, some reply))
    (isSession : (reply.queued index entry).session? = some response) :
    entry.request.isNewSession ∧ response.isReconnected = false ∧
        response.sessionId = replica.sessionIdCounter ∨
      (∃ request, entry.request = .single (.updateSession request) ∧
        request.sessionId = response.sessionId) ∧ response.isReconnected = true := by
  rcases ite_none_right_eq_some.mp isSession with ⟨isSessionRequest, isSession⟩
  rw [Request.isSessionRequest.eq_def] at isSessionRequest
  split at isSessionRequest
  next request isRequest =>
    simp only [apply, isRequest] at applies
    cases applies
    cases isSession
    exact .inl ⟨by rw [isRequest]; rfl, rfl, rfl⟩
  next request isRequest =>
    simp only [apply, isRequest] at applies
    cases applies
    cases isSession
    exact .inr ⟨⟨request, isRequest, rfl⟩, rfl⟩
  next => cases isSessionRequest

def opened (entries : List LogEntry) : ℕ :=
  entries.countP (·.request.isNewSession)

theorem sessionIdCounter_runFrom {entries : List LogEntry}
    (runs : runFrom (Replicated.applyEntry platform) replica entries = some after) :
    after.sessionIdCounter = replica.sessionIdCounter + Int64.ofNat (opened entries) := by
  induction entries generalizing replica with
  | nil =>
    cases runs
    exact (Int64.add_zero _).symm
  | cons entry rest ih =>
    rw [runFrom] at runs
    split at runs
    next middle applies =>
      rcases map_eq_some_iff.mp applies with ⟨⟨_, reply⟩, returns, rfl⟩
      rw [ih runs, (Replicated.sessionStep_apply returns).sessionIdCounter, opened, opened,
        countP_cons]
      split
      · rw [Int64.ofNat_add, Int64.add_assoc, Int64.add_comm 1]
        rfl
      · simp
    next => cases runs

end

namespace HandshakeCluster

variable {platform : Platform} {machine after : HandshakeCluster} {initial replica : Replicated}
  {log : List LoggedRequest} {index : ℕ}

theorem stateAt_append (more : List LoggedRequest) (isWithin : index ≤ log.length) :
    stateAt platform initial (log ++ more) index = stateAt platform initial log index := by
  rw [stateAt, take_append_of_le_length isWithin, stateAt]

variable {logged : LoggedRequest}

theorem stateAt_succ (isLogged : log[index]? = some logged)
    (isState : stateAt platform initial log index = some replica) :
    stateAt platform initial log (index + 1) = replica.applyEntry platform logged.entry := by
  rw [stateAt] at isState
  rw [stateAt, take_add_one, isLogged, map_append, runFrom_append, isState]
  simp only [toList_some, map_cons, map_nil, bind_some, runFrom]
  cases replica.applyEntry platform logged.entry <;> rfl

theorem le_of_sessionIdCounter_eq {first second : ℕ} {earlier later : Replicated}
    (isShort : log.length < 2 ^ 64) (isLogged : log[first]? = some logged)
    (isNew : logged.entry.request.isNewSession)
    (isEarlier : stateAt platform initial log first = some earlier)
    (isLater : stateAt platform initial log second = some later)
    (isSame : earlier.sessionIdCounter = later.sessionIdCounter) : second ≤ first := by
  by_contra isBehind
  rw [stateAt] at isEarlier isLater
  rw [sessionIdCounter_runFrom isEarlier, sessionIdCounter_runFrom isLater] at isSame
  have isCount : opened ((log.take (first + 1)).map (·.entry)) =
      opened ((log.take first).map (·.entry)) + 1 := by
    simp [opened, take_add_one, isLogged, isNew]
  have isMonotone : opened ((log.take (first + 1)).map (·.entry)) ≤
      opened ((log.take second).map (·.entry)) := by
    have isPrefix : log.take (first + 1) <+: log.take second :=
      take_prefix_take_left (by omega)
    exact (isPrefix.map _).sublist.countP_le
  have isBounded : opened ((log.take second).map (·.entry)) ≤ log.length := by
    calc
      _ ≤ ((log.take second).map (·.entry)).length := countP_le_length
      _ ≤ log.length := by simp
  rw [Int64.add_right_inj] at isSame
  have isSame := congrArg (fun id : Int64 => id.toUInt64.toNat) isSame
  simp only [Int64.toUInt64_ofNat', UInt64.toNat_ofNat'] at isSame
  omega

/-- Whatever is under way with this session id belongs to the connection. -/
structure Owned (pushed log : List LoggedRequest) (applied : ℕ) (responses : List QueuedResponse)
    (session : Int64) (owner : Int32 × ℕ) : Prop where
  pushed : ∀ sent ∈ pushed, sent.entry.sessionId = session → sent.sender = some owner
  logged : ∀ logged ∈ log.drop applied, logged.entry.sessionId = session →
    logged.sender = none ∨ logged.sender = some owner
  queued : ∀ response ∈ responses, response.sessionId = session →
    response.session? = none ∨
      ∃ logged, log[response.index]? = some logged ∧ logged.sender = some owner

/-- A server has applied a part of the log, and waits only for the responses to its own requests. -/
structure ServerSound (platform : Platform) (initial : Replicated) (pushed log : List LoggedRequest)
    (id : Int32) (server : HandshakeServer) : Prop where
  behind : server.applied ≤ log.length
  follows : stateAt platform initial log server.applied = some server.replica
  answers : ∀ response ∈ server.responses, response.Answers platform initial log
  owned : ∀ session connection,
    server.dispatcher.sessionResponseCallbacks.lookup session = some connection →
      Owned pushed log server.applied server.responses session (id, connection)

variable {pushed : List LoggedRequest} {applied : ℕ} {responses : List QueuedResponse}
  {session : Int64} {owner : Int32 × ℕ} {id : Int32} {server : HandshakeServer}

theorem getElem?_append_of_some {logged : LoggedRequest} (isLogged : log[index]? = some logged)
    (more : List LoggedRequest) : (log ++ more)[index]? = some logged := by
  rcases List.getElem?_eq_some_iff.mp isLogged with ⟨isWithin, _⟩
  rw [getElem?_append_left isWithin, isLogged]

variable {response : QueuedResponse}

theorem answers_append (answers : response.Answers platform initial log)
    (more : List LoggedRequest) : response.Answers platform initial (log ++ more) := by
  rcases answers with ⟨logged, replica, after, reply, isLogged, isState, applies, isReply⟩
  rcases List.getElem?_eq_some_iff.mp isLogged with ⟨isWithin, _⟩
  refine ⟨logged, replica, after, reply, getElem?_append_of_some isLogged more, ?_, applies,
    isReply⟩
  rw [stateAt_append more isWithin.le, isState]

theorem Owned.commit {request : LoggedRequest} {rest : List LoggedRequest}
    (owned : Owned pushed log applied responses session owner) (isBehind : applied ≤ log.length)
    (isRest : rest ⊆ pushed) (isPushed : request ∈ pushed ∨ request.sender = none) :
    Owned rest (log ++ [request]) applied responses session owner where
  pushed := fun sent isSent => owned.pushed sent (isRest isSent)
  logged := by
    intro logged isLogged isSession
    rw [drop_append_of_le_length isBehind, mem_append, mem_singleton] at isLogged
    rcases isLogged with isLogged | rfl
    · exact owned.logged logged isLogged isSession
    · rcases isPushed with isPushed | isOther
      · exact .inr (owned.pushed logged isPushed isSession)
      · exact .inl isOther
  queued := by
    intro response isResponse isSession
    rcases owned.queued response isResponse isSession with isOther | ⟨logged, isLogged, isOwner⟩
    · exact .inl isOther
    · exact .inr ⟨logged, getElem?_append_of_some isLogged _, isOwner⟩

theorem Owned.apply {reply : Option Reply}
    (owned : Owned pushed log applied responses session owner)
    (isLogged : log[applied]? = some logged)
    (hasSender : logged.entry.request.isSessionRequest → logged.sender.isSome) :
    Owned pushed log (applied + 1) (responses ++ reply.toList.map (·.queued applied logged.entry))
      session owner where
  __ := owned
  logged := by
    intro later isLater
    rw [← drop_drop] at isLater
    exact owned.logged later (mem_of_mem_drop isLater)
  queued := by
    intro response isResponse isSession
    rcases mem_append.mp isResponse with isOld | isNew
    · exact owned.queued response isOld isSession
    · rcases mem_map.mp isNew with ⟨reply, _, rfl⟩
      by_cases isRequest : logged.entry.request.isSessionRequest = true
      · rcases List.getElem?_eq_some_iff.mp isLogged with ⟨isWithin, isElement⟩
        have isNext : logged ∈ log.drop applied := by
          rw [drop_eq_getElem_cons isWithin, isElement]
          exact mem_cons_self
        rcases owned.logged logged isNext isSession with noSender | isOwner
        · have isSome := hasSender isRequest
          simp [noSender] at isSome
        · exact .inr ⟨logged, isLogged, isOwner⟩
      · exact .inl (if_neg isRequest)

theorem Owned.tail (owned : Owned pushed log applied (response :: responses) session owner) :
    Owned pushed log applied responses session owner where
  __ := owned
  queued := fun later isLater => owned.queued later (mem_cons_of_mem _ isLater)

namespace ServerSound

section

variable (sound : ServerSound platform initial pushed log id server)

include sound

variable {request : LoggedRequest}

theorem commit {rest : List LoggedRequest} (isRest : rest ⊆ pushed)
    (isPushed : request ∈ pushed ∨ request.sender = none) :
    ServerSound platform initial rest (log ++ [request]) id server where
  behind := by
    rw [length_append]
    exact sound.behind.trans (Nat.le_add_right _ _)
  follows := by rw [stateAt_append _ sound.behind, sound.follows]
  answers := fun response isResponse => answers_append (sound.answers response isResponse) _
  owned := fun session connection isCallback =>
    (sound.owned session connection isCallback).commit sound.behind isRest isPushed

theorem forget {dispatcher : KeeperDispatcher} (isOld : server.dispatcher.Forgets dispatcher) :
    ServerSound platform initial pushed log id { server with dispatcher } where
  __ := sound
  owned := fun session connection isCallback =>
    sound.owned session connection (isOld session connection isCallback)

theorem tail {response : QueuedResponse} {rest : List QueuedResponse}
    (isQueue : server.responses = response :: rest) :
    ServerSound platform initial pushed log id { server with responses := rest } where
  __ := sound
  answers := fun later isLater =>
    sound.answers later (isQueue ▸ mem_cons_of_mem _ isLater)
  owned := by
    intro session connection isCallback
    have owned := sound.owned session connection isCallback
    rw [isQueue] at owned
    exact owned.tail

theorem apply {after : HandshakeServer}
    (senders : ∀ logged ∈ log, logged.entry.request.isSessionRequest → logged.sender.isSome)
    (applies : HandshakeServer.apply platform log server = some after) :
    ServerSound platform initial pushed log id after := by
  rcases bind_eq_some_iff.mp applies with ⟨logged, isLogged, applies⟩
  rcases map_eq_some_iff.mp applies with ⟨⟨replica, reply⟩, returns, rfl⟩
  constructor
  case behind =>
    rcases List.getElem?_eq_some_iff.mp isLogged with ⟨isWithin, _⟩
    exact isWithin
  case follows =>
    rw [stateAt_succ isLogged sound.follows, Replicated.applyEntry, returns]
    rfl
  case answers =>
    intro response isResponse
    rcases mem_append.mp isResponse with isOld | isNew
    · exact sound.answers response isOld
    · rcases mem_map.mp isNew with ⟨reply, isReply, rfl⟩
      rw [mem_toList] at isReply
      exact ⟨logged, server.replica, replica, reply, isLogged, sound.follows, isReply ▸ returns,
        rfl⟩
  case owned =>
    intro session connection isCallback
    exact (sound.owned session connection isCallback).apply isLogged
      (senders logged (mem_of_getElem? isLogged))

theorem push
    (isFree : server.dispatcher.sessionResponseCallbacks.lookup request.entry.sessionId = none) :
    ServerSound platform initial (pushed ++ [request]) log id server where
  __ := sound
  owned := by
    intro session connection isCallback
    have owned := sound.owned session connection isCallback
    refine { owned with
      pushed := forall_mem_append.mpr ⟨owned.pushed, forall_mem_singleton.mpr ?_⟩ }
    rintro rfl
    rw [isFree] at isCallback
    cases isCallback

end

theorem register {request : LoggedRequest} {dispatcher : KeeperDispatcher} {connection : ℕ}
    (sound : ServerSound platform initial (pushed ++ [request]) log id server)
    (isSender : request.sender = some (id, connection))
    (isAdded : dispatcher.sessionResponseCallbacks =
      server.dispatcher.sessionResponseCallbacks.insert request.entry.sessionId connection)
    (noPushed : ∀ sent ∈ pushed, sent.entry.sessionId ≠ request.entry.sessionId)
    (noLogged : ∀ logged ∈ log.drop server.applied,
      logged.entry.sessionId = request.entry.sessionId → logged.sender = none)
    (noQueued : ∀ response ∈ server.responses,
      response.sessionId = request.entry.sessionId → response.session? = none) :
    ServerSound platform initial (pushed ++ [request]) log id { server with dispatcher } where
  __ := sound
  owned := by
    intro session other isCallback
    dsimp only at isCallback
    rw [isAdded, Finmap.lookup_insert_ite] at isCallback
    split at isCallback
    next isSession =>
      cases isCallback
      cases isSession
      constructor
      · exact forall_mem_append.mpr ⟨fun sent isSent isSession =>
          absurd isSession (noPushed sent isSent), forall_mem_singleton.mpr fun _ => isSender⟩
      · exact fun logged isLogged isSession => .inl (noLogged logged isLogged isSession)
      · exact fun response isResponse isSession => .inl (noQueued response isResponse isSession)
    next => exact sound.owned session other isCallback

end ServerSound

/-- The connection has got the response to the request that it has sent itself. -/
def IsOwn (platform : Platform) (initial : Replicated) (log : List LoggedRequest) (given : Given) :
    Prop :=
  ∃ response : QueuedResponse, response.Answers platform initial log ∧
    response.index = given.index ∧ response.session? = some given.response ∧
    ∃ logged, log[given.index]? = some logged ∧
      logged.sender = some (given.server, given.connection)

theorem isOwn_append {given : Given} (isOwn : IsOwn platform initial log given)
    (more : List LoggedRequest) : IsOwn platform initial (log ++ more) given := by
  rcases isOwn with ⟨response, answers, isIndex, isSession, logged, isLogged, isSender⟩
  exact ⟨response, answers_append answers more, isIndex, isSession, logged,
    getElem?_append_of_some isLogged more, isSender⟩

/-- Every server waits for answers to its own handshakes only, and has given no others. -/
structure Sound (platform : Platform) (initial : Replicated) (machine : HandshakeCluster) :
    Prop where
  servers : ∀ id server, machine.servers.lookup id = some server →
    ServerSound platform initial machine.pushed machine.log id server
  pushed : ∀ sent ∈ machine.pushed, sent.sender.isSome
  logged : ∀ logged ∈ machine.log, logged.entry.request.isSessionRequest → logged.sender.isSome
  given : ∀ given ∈ machine.given, IsOwn platform initial machine.log given

def start (initial : Replicated) (ids : List Int32) : HandshakeCluster where
  servers := ids.foldr (fun id servers => servers.insert id
    { dispatcher := { newSessionInternalIdCounter := id.toInt64 }, replica := initial }) ∅

theorem lookup_start {ids : List Int32}
    (isServer : (start initial ids).servers.lookup id = some server) :
    server =
      { dispatcher := { newSessionInternalIdCounter := id.toInt64 }, replica := initial } := by
  induction ids with
  | nil => cases isServer
  | cons first rest ih =>
    simp only [start, foldr_cons, Finmap.lookup_insert_ite] at isServer
    split at isServer
    next isFirst =>
      cases isServer
      rw [isFirst]
    next => exact ih isServer

theorem sound_start (ids : List Int32) : (start initial ids).Sound platform initial where
  servers := by
    intro id server isServer
    cases lookup_start isServer
    constructor
    case behind => exact Nat.zero_le _
    case follows => rfl
    case answers => nofun
    case owned => nofun
  pushed := nofun
  logged := nofun
  given := nofun

namespace Sound

variable (sound : machine.Sound platform initial)

include sound

theorem change {step : HandshakeServer → Option HandshakeServer}
    (changes : machine.change id step = some after)
    (keeps : ∀ server changed, ServerSound platform initial machine.pushed machine.log id server →
      step server = some changed →
        ServerSound platform initial machine.pushed machine.log id changed) :
    after.Sound platform initial := by
  rcases bind_eq_some_iff.mp changes with ⟨server, isServer, changes⟩
  rcases map_eq_some_iff.mp changes with ⟨changed, steps, rfl⟩
  have isSound := keeps server changed (sound.servers id server isServer) steps
  exact { sound with servers := Finmap.Everywhere.insert sound.servers isSound }

theorem commit {request : LoggedRequest} {rest : List LoggedRequest}
    (isRest : rest ⊆ machine.pushed) (isPushed : request ∈ machine.pushed ∨ request.sender = none)
    (hasSender : request.entry.request.isSessionRequest → request.sender.isSome) :
    Sound platform initial
      { machine with pushed := rest, log := machine.log ++ [request] } where
  servers := fun id server isServer => (sound.servers id server isServer).commit isRest isPushed
  pushed := fun sent isSent => sound.pushed sent (isRest isSent)
  logged := forall_mem_append.mpr ⟨sound.logged, forall_mem_singleton.mpr hasSender⟩
  given := fun given isGiven => isOwn_append (sound.given given isGiven) _

theorem receiveHandshake {clusterNodeCount previous : Int64} {connection : ℕ} {timeoutMs : Int32}
    (isDistinct : machine.Distinct
      (.receiveHandshake id clusterNodeCount connection previous timeoutMs))
    (receives : machine.receiveHandshake id clusterNodeCount connection previous timeoutMs =
      some after) : after.Sound platform initial := by
  rcases bind_eq_some_iff.mp receives with ⟨server, isServer, receives⟩
  rcases map_eq_some_iff.mp receives with ⟨⟨dispatcher, sent⟩, registers, rfl⟩
  rcases isDistinct server isServer with ⟨⟨noPushed, noLogged, noQueued⟩, isFree⟩
  rcases receiveHandshake_spec registers with
    ⟨handler, counter, _, ⟨rfl, destroys⟩ | ⟨request, isRequest, rfl, _, rfl⟩⟩
  · have isForget := forgets_beginDestroy destroys
    have isSound := (sound.servers id server isServer).forget isForget
    simp only [toList_none, map_nil, append_nil]
    exact { sound with servers := Finmap.Everywhere.insert sound.servers isSound }
  · rw [← isRequest] at noPushed noLogged noQueued isFree
    let logged : LoggedRequest := { entry := request.entry, sender := some (id, connection) }
    have pushes (other : Int32) (server : HandshakeServer)
        (isServer : machine.servers.lookup other = some server) :
        ServerSound platform initial (machine.pushed ++ [logged]) machine.log other server :=
      (sound.servers other server isServer).push (isFree other server isServer)
    exact { sound with
      servers := Finmap.Everywhere.insert pushes ((pushes id server isServer).register rfl rfl
        noPushed noLogged noQueued)
      pushed := forall_mem_append.mpr ⟨sound.pushed, forall_mem_singleton.mpr rfl⟩ }

theorem respond (responds : machine.respond id = some after) : after.Sound platform initial := by
  rcases bind_eq_some_iff.mp responds with ⟨server, isServer, responds⟩
  have isSound := sound.servers id server isServer
  split at responds
  · cases responds
  next response rest isQueue =>
    have isTail := isSound.tail isQueue
    split at responds
    next =>
      rcases map_eq_some_iff.mp responds with ⟨⟨dispatcher, receiver⟩, invokes, rfl⟩
      have isForget := forgets_invokeUserResponse invokes
      exact
        { sound with servers := Finmap.Everywhere.insert sound.servers (isTail.forget isForget) }
    next session isSession =>
      rcases map_eq_some_iff.mp responds with ⟨⟨dispatcher, receiver⟩, invokes, rfl⟩
      rcases invokeSessionResponse_spec invokes with ⟨isForget, isReceiver⟩
      have isMember : response ∈ server.responses := isQueue ▸ mem_cons_self
      refine { sound with
        servers := Finmap.Everywhere.insert sound.servers (isTail.forget isForget)
        given := forall_mem_append.mpr ⟨sound.given, forall_mem_map.mpr ?_⟩ }
      intro connection isConnection
      rw [mem_toList] at isConnection
      have owned := isSound.owned _ _ (isReceiver.trans isConnection)
      rcases owned.queued response isMember rfl with isOther | isLogged
      · rw [isSession] at isOther
        cases isOther
      · exact ⟨response, isSound.answers response isMember, rfl, isSession, isLogged⟩

theorem next {call : HandshakeCall} (isDistinct : machine.Distinct call)
    (steps : machine.next platform call = some after) :
    after.Sound platform initial := by
  cases call with
  | accept id =>
    apply sound.change steps
    rintro server changed isSound ⟨⟩
    exact isSound.forget (forgets_of_eq rfl)
  | receiveHandshake id clusterNodeCount connection previous timeoutMs =>
    exact sound.receiveHandshake isDistinct steps
  | commit position =>
    rcases map_eq_some_iff.mp steps with ⟨request, isRequest, rfl⟩
    have isPushed := mem_of_getElem? isRequest
    exact sound.commit eraseIdx_subset (.inl isPushed)
      fun _ => sound.pushed request isPushed
  | commitOther entry =>
    rcases ite_none_left_eq_some.mp steps with ⟨isOther, isAfter⟩
    cases isAfter
    exact sound.commit (Subset.refl _) (.inr rfl) fun isSession => absurd isSession isOther
  | apply id =>
    apply sound.change steps
    intro server changed isSound applies
    exact isSound.apply sound.logged applies
  | respond id => exact sound.respond steps
  | beginDestroy id connection =>
    apply sound.change steps
    intro server changed isSound destroys
    rcases map_eq_some_iff.mp destroys with ⟨dispatcher, begins, rfl⟩
    exact isSound.forget (forgets_beginDestroy begins)
  | endDestroy id connection =>
    apply sound.change steps
    intro server changed isSound destroys
    rcases map_eq_some_iff.mp destroys with ⟨dispatcher, ends, rfl⟩
    exact isSound.forget (forgets_endDestroy ends)

end Sound

theorem connection_eq_of_sessionId {first second : Given} (isShort : log.length < 2 ^ 64)
    (isFirst : IsOwn platform initial log first) (isSecond : IsOwn platform initial log second)
    (isSame : first.response.sessionId = second.response.sessionId)
    (firstIsNew : first.response.isReconnected = false)
    (secondIsNew : second.response.isReconnected = false) :
    (first.server, first.connection) = (second.server, second.connection) := by
  rcases isFirst with ⟨response, answers, isIndex, isSession, sent, isSent, isSender⟩
  rcases answers with ⟨logged, replica, _, reply, isLogged, isState, applies, isReply⟩
  rcases isSecond with ⟨otherResponse, otherAnswers, otherIndex, otherSession, otherSent,
    isOtherSent, isOtherSender⟩
  rcases otherAnswers with ⟨otherLogged, otherReplica, _, otherReply, isOtherLogged, isOtherState,
    otherApplies, isOtherReply⟩
  rw [isReply] at isSession
  rw [isOtherReply] at otherSession
  rcases Replicated.session_apply applies isSession with ⟨isNew, _, isId⟩ | ⟨_, isReconnected⟩
  · rcases Replicated.session_apply otherApplies otherSession with
      ⟨otherIsNew, _, otherIsId⟩ | ⟨_, isReconnected⟩
    · have isCounter : replica.sessionIdCounter = otherReplica.sessionIdCounter := by
        rw [← isId, isSame, otherIsId]
      have isPlace : first.index = second.index := by
        rw [← isIndex, ← otherIndex]
        apply Nat.le_antisymm
        · exact le_of_sessionIdCounter_eq isShort isOtherLogged otherIsNew isOtherState isState
            isCounter.symm
        · exact le_of_sessionIdCounter_eq isShort isLogged isNew isState isOtherState isCounter
      rw [isPlace, isOtherSent] at isSent
      cases isSent
      exact some.inj (isSender.symm.trans isOtherSender)
    · rw [secondIsNew] at isReconnected
      cases isReconnected
  · rw [firstIsNew] at isReconnected
    cases isReconnected

/-- If no two handshakes that are under way share an id, a connection gets the response to its own
request, and of two connections that are told of one session one has asked for it. -/
theorem responses_to_own_handshake {ids : List Int32}
    (reached : ReachableBy (next platform) Distinct (start initial ids) machine) :
    (∀ given ∈ machine.given, IsOwn platform initial machine.log given) ∧
      (machine.log.length < 2 ^ 64 →
        ∀ first ∈ machine.given, ∀ second ∈ machine.given,
          first.response.sessionId = second.response.sessionId →
            first.response.isReconnected = false → second.response.isReconnected = false →
              (first.server, first.connection) = (second.server, second.connection)) := by
  have sound : machine.Sound platform initial :=
    reached.invariant (·.Sound platform initial) (sound_start ids)
      fun sound isDistinct steps => sound.next isDistinct steps
  refine ⟨sound.given, ?_⟩
  intro isShort first isFirst second isSecond
  exact connection_eq_of_sessionId isShort (sound.given first isFirst) (sound.given second isSecond)

def sampleRun : List HandshakeCall :=
  [.accept 1, .accept 2, .receiveHandshake 1 2 0 0 1000, .receiveHandshake 2 2 0 0 1000,
    .commit 1, .commit 0, .apply 1, .apply 1, .apply 2, .apply 2,
    .respond 1, .respond 1, .respond 2, .respond 2]

theorem responses_to_own_handshake_sampleRun :
    ∃ machine, ReachableBy (next .sample) Distinct (start KeeperStore.sample.replicated [1, 2])
        machine ∧
      machine.given.map (fun given => (given.server, given.response.sessionId)) = [(1, 2), (2, 1)] ∧
      ∀ given ∈ machine.given, IsOwn .sample KeeperStore.sample.replicated machine.log given := by
  exact exists_reached_of (fun machine =>
      machine.given.map (fun given => (given.server, given.response.sessionId)) =
        [(1, 2), (2, 1)]) sampleRun (by decide +kernel)
    fun reached isGiven => ⟨isGiven, (responses_to_own_handshake reached).1⟩

def mixedRun : List HandshakeCall :=
  [.accept 1, .accept 1, .accept 3, .receiveHandshake 1 2 0 0 1000,
    .receiveHandshake 1 2 1 0 1000, .receiveHandshake 3 2 0 0 1000,
    .commit 1, .apply 1, .apply 3, .respond 1, .respond 3]

/-- A connection of server 3 is given the session that a connection of server 1 has opened. -/
theorem mixedRun_shares_session :
    (runFrom (next .sample) (start KeeperStore.sample.replicated [1, 3]) mixedRun).map
        (fun machine => machine.given.map fun given =>
          ((given.server, given.connection), (machine.log[given.index]?).bind (·.sender),
            given.response)) =
      some [((1, 1), some (1, 1), ⟨3, 1, true, false⟩), ((3, 0), some (1, 1), ⟨3, 1, true, false⟩)]
      := by
  decide +kernel

end HandshakeCluster

end RaftKeeper
