import RaftKeeper.Dispatcher.Callbacks
import RaftKeeper.Lib.Run

/-!
# Whom the responses of a session go to

A client often reconnects before the server has noticed that its first connection is gone.
`registerUserResponseCallBackWithoutLock` then keeps the callback of the first connection, and when
that is destroyed the callback is removed. If the first handler is destroyed before the response to
the reconnect arrives, the responses go to the newest connection that is alive.
-/

namespace RaftKeeper

open Finmap Function KeeperDispatcher Option

/-- A dispatcher with the connections that have got a session since it was closed last, the oldest
first. -/
structure Attachments where
  dispatcher : KeeperDispatcher
  attached : List (Int64 × ℕ) := []

/-- What can happen on a server as far as the callbacks of connections are concerned. -/
inductive ConnectionCall
  | accept
  | receiveHandshake (connection : ℕ) (previousSessionId : Int64) (timeoutMs : Int32)
  | sessionResponse (route : Int64) (response : SessionResponse)
  | userResponse (session : Int64) (isClose : Bool)
  | beginDestroy (connection : ℕ)
  | endDestroy (connection : ℕ)

namespace KeeperDispatcher

def sessionOf (dispatcher : KeeperDispatcher) (connection : ℕ) : Option Int64 :=
  match dispatcher.handlers.lookup connection with
  | none => none
  | some handler => if handler.destroying then none else some handler.sessionId

def isAlive (dispatcher : KeeperDispatcher) (connection : ℕ) : Bool :=
  (dispatcher.handlers.lookup connection).any fun handler => !handler.destroying

theorem isAlive_eq (dispatcher : KeeperDispatcher) (connection : ℕ) :
    dispatcher.isAlive connection = (dispatcher.sessionOf connection).isSome := by
  rw [isAlive, sessionOf]
  cases dispatcher.handlers.lookup connection with
  | none => rfl
  | some handler => cases flag : handler.destroying <;> simp [flag]

variable {dispatcher : KeeperDispatcher} {connection : ℕ} {handler : ConnectionHandler}

theorem sessionOf_of_insert {after : KeeperDispatcher}
    (isChanged : after.handlers = dispatcher.handlers.insert connection handler) :
    after.sessionOf = update dispatcher.sessionOf connection
      (if handler.destroying then none else some handler.sessionId) := by
  funext other
  rw [update_apply, sessionOf, isChanged, lookup_insert_ite]
  by_cases isConnection : other = connection
  · rw [if_pos isConnection, if_pos isConnection]
  · rw [if_neg isConnection, if_neg isConnection, sessionOf]

theorem sessionOf_of_running (isHandler : dispatcher.handlers.lookup connection = some handler)
    (running : handler.destroying = false) :
    dispatcher.sessionOf connection = some handler.sessionId := by
  simp [sessionOf, isHandler, running]

end KeeperDispatcher

namespace Attachments

variable {myId : Int32} {nodeCount : Int64} {machine after : Attachments} {session : Int64}
  {connection : ℕ}

def withDispatcher (machine : Attachments) (dispatcher : KeeperDispatcher) : Attachments :=
  { machine with dispatcher := dispatcher }

def next (myId : Int32) (nodeCount : Int64) (machine : Attachments) :
    ConnectionCall → Option Attachments
  | .accept => some (machine.withDispatcher machine.dispatcher.accept)
  | .receiveHandshake connection previousSessionId timeoutMs =>
    (machine.dispatcher.receiveHandshake myId nodeCount connection previousSessionId
      timeoutMs).map fun (dispatcher, _) => machine.withDispatcher dispatcher
  | .sessionResponse route response =>
    (machine.dispatcher.invokeSessionResponse route response).map fun (dispatcher, receiver) =>
      { dispatcher := dispatcher
        attached := machine.attached ++
          if response.success then receiver.toList.map (response.sessionId, ·) else [] }
  | .userResponse session isClose =>
    (machine.dispatcher.invokeUserResponse session isClose).map fun (dispatcher, _) =>
      { dispatcher := dispatcher
        attached :=
          if isClose then machine.attached.filter (·.1 ≠ session) else machine.attached }
  | .beginDestroy connection =>
    (machine.dispatcher.beginDestroy connection).map machine.withDispatcher
  | .endDestroy connection =>
    (machine.dispatcher.endDestroy connection).map machine.withDispatcher

def newest (machine : Attachments) (session : Int64) : Option ℕ :=
  ((machine.attached.filter fun (owner, connection) =>
    owner = session && machine.dispatcher.isAlive connection).getLast?).map Prod.snd

/-- A successful response finds a handler that has no session and is not being destroyed, and no
other handler that has this session. -/
def Alone (machine : Attachments) : ConnectionCall → Prop
  | .sessionResponse route response =>
    response.success = true → response.sessionId ≠ 0 ∧
      (∀ connection ∈ machine.dispatcher.sessionResponseCallbacks.lookup route,
        ∀ handler ∈ machine.dispatcher.handlers.lookup connection,
          handler.sessionId = 0 ∧ handler.destroying = false) ∧
      ∀ connection handler, machine.dispatcher.handlers.lookup connection = some handler →
        handler.destroying = true ∨ handler.sessionId ≠ response.sessionId
  | .accept | .receiveHandshake .. | .userResponse .. | .beginDestroy _ | .endDestroy _ => True

instance (machine : Attachments) (call : ConnectionCall) : Decidable (machine.Alone call) := by
  unfold Alone
  split <;> infer_instance

/-- The callbacks, the sessions of the handlers that are not being destroyed, and the connections
that have got a session agree. -/
structure Agrees (callbacks : Int64 → Option ℕ) (sessions : ℕ → Option Int64)
    (attached : List (Int64 × ℕ)) (accepted : ℕ) : Prop where
  registered : ∀ {session connection}, callbacks session = some connection →
    (session, connection) ∈ attached ∧ sessions connection = some session
  alive : ∀ {session connection owner}, (session, connection) ∈ attached →
    sessions connection = some owner → callbacks session = some connection
  unique : ∀ {session first second}, sessions first = some session →
    sessions second = some session → session ≠ 0 → first = second
  numbered : ∀ {connection owner}, sessions connection = some owner → connection < accepted
  attached_lt : ∀ {session connection}, (session, connection) ∈ attached → connection < accepted
  nonzero : ∀ {session connection}, (session, connection) ∈ attached → session ≠ 0

namespace Agrees

variable {callbacks : Int64 → Option ℕ} {sessions : ℕ → Option Int64} {attached : List (Int64 × ℕ)}
  {accepted : ℕ} (agrees : Agrees callbacks sessions attached accepted)

include agrees

theorem accept : Agrees callbacks (update sessions accepted (some 0)) attached (accepted + 1) := by
  rcases agrees with ⟨registered, alive, unique, numbered, attached_lt, nonzero⟩
  constructor <;> grind [update_apply]

theorem beginDestroy (isSession : sessions connection = some session) :
    Agrees (if session ≠ 0 then update callbacks session none else callbacks)
      (update sessions connection none) attached accepted := by
  rcases agrees with ⟨registered, alive, unique, numbered, attached_lt, nonzero⟩
  constructor <;> grind [update_apply]

theorem attach (unattached : sessions connection = some 0) (isSession : session ≠ 0)
    (alone : ∀ other, sessions other ≠ some session) :
    Agrees (update callbacks session (some connection))
      (update sessions connection (some session)) (attached ++ [(session, connection)])
      accepted := by
  rcases agrees with ⟨registered, alive, unique, numbered, attached_lt, nonzero⟩
  constructor <;> grind [update_apply]

theorem close (session : Int64) :
    Agrees (update callbacks session none) sessions (attached.filter (·.1 ≠ session))
      accepted := by
  rcases agrees with ⟨registered, alive, unique, numbered, attached_lt, nonzero⟩
  constructor <;> grind [update_apply]

end Agrees

def Sound (machine : Attachments) : Prop :=
  Agrees (fun session => machine.dispatcher.userResponseCallbacks.lookup session)
    machine.dispatcher.sessionOf machine.attached machine.dispatcher.accepted

section

variable (sound : machine.Sound)

include sound

theorem Sound.newest_eq (session : Int64) :
    machine.newest session = machine.dispatcher.userResponseCallbacks.lookup session := by
  -- every connection of the session that is alive is the one that is registered
  have only : ∀ entry ∈ machine.attached.filter (fun (owner, connection) =>
      owner = session && machine.dispatcher.isAlive connection),
      machine.dispatcher.userResponseCallbacks.lookup session = some entry.2 := by
    rintro ⟨owner, connection⟩ isMember
    rcases List.mem_filter.mp isMember with ⟨isAttached, isAlive⟩
    simp only [Bool.and_eq_true, decide_eq_true_eq, isAlive_eq] at isAlive
    rcases isAlive with ⟨rfl, isAlive⟩
    exact sound.alive isAttached (some_get isAlive).symm
  rw [newest]
  cases isLast : (machine.attached.filter fun (owner, connection) =>
      owner = session && machine.dispatcher.isAlive connection).getLast? with
  | some entry => exact (only entry (List.mem_of_getLast? isLast)).symm
  | none =>
    have isEmpty := List.getLast?_eq_none_iff.mp isLast
    cases found : machine.dispatcher.userResponseCallbacks.lookup session with
    | none => rfl
    | some connection =>
      rcases sound.registered found with ⟨isAttached, isSession⟩
      have isMember : (session, connection) ∈ machine.attached.filter
          (fun (owner, connection) =>
            owner = session && machine.dispatcher.isAlive connection) := by
        refine List.mem_filter.mpr ⟨isAttached, ?_⟩
        simp [isAlive_eq, isSession]
      rw [isEmpty] at isMember
      cases isMember

variable {dispatcher : KeeperDispatcher}

theorem Sound.beginDestroy
    (destroys : machine.dispatcher.beginDestroy connection = some dispatcher) :
    (machine.withDispatcher dispatcher).Sound := by
  rw [KeeperDispatcher.beginDestroy] at destroys
  split at destroys
  · cases destroys
  next handler isHandler =>
    split at destroys
    · cases destroys
    next running =>
      cases destroys
      have destroyed := Agrees.beginDestroy sound
        (sessionOf_of_running isHandler (by simpa using running))
      rw [Sound, withDispatcher, sessionOf_of_insert rfl]
      split
      next isSession =>
        rw [if_pos isSession, ← lookup_erase_eq_update] at destroyed
        exact destroyed
      next noSession =>
        rw [if_neg noSession] at destroyed
        exact destroyed

theorem Sound.endDestroy (destroys : machine.dispatcher.endDestroy connection = some dispatcher) :
    (machine.withDispatcher dispatcher).Sound := by
  rw [KeeperDispatcher.endDestroy] at destroys
  split at destroys
  · cases destroys
  next handler isHandler =>
    rcases ite_none_right_eq_some.mp destroys with ⟨isDestroying, isDispatcher⟩
    cases some.inj isDispatcher
    have same : sessionOf
        { machine.dispatcher.unRegisterSessionResponseCallback
            (if handler.handshakeDone then handler.sessionId else handler.internalId) with
          handlers := machine.dispatcher.handlers.erase connection } =
        machine.dispatcher.sessionOf := by
      funext other
      rw [sessionOf, lookup_erase_ite]
      by_cases isConnection : other = connection
      · subst isConnection
        simp [sessionOf, isHandler, isDestroying]
      · rw [if_neg isConnection, sessionOf]
    rw [Sound, withDispatcher, same]
    exact sound

theorem Sound.attach {handler : ConnectionHandler} {response : SessionResponse}
    (isHandler : machine.dispatcher.handlers.lookup connection = some handler)
    (success : response.success = true) (isSession : response.sessionId ≠ 0)
    (unattached : handler.sessionId = 0) (running : handler.destroying = false)
    (alone : ∀ other found, machine.dispatcher.handlers.lookup other = some found →
      found.destroying = true ∨ found.sessionId ≠ response.sessionId) :
    Sound
      { dispatcher := machine.dispatcher.sendSessionResponseToClient connection handler response
        attached := machine.attached ++ [(response.sessionId, connection)] } := by
  have others : ∀ other, machine.dispatcher.sessionOf other ≠ some response.sessionId := by
    intro other owns
    rw [sessionOf] at owns
    split at owns
    · cases owns
    next found isFound =>
      rcases ite_none_left_eq_some.mp owns with ⟨runs, isSame⟩
      exact (alone other found isFound).elim runs fun differs => differs (some.inj isSame)
  have absent : machine.dispatcher.userResponseCallbacks.lookup response.sessionId = none :=
    eq_none_iff_forall_ne_some.mpr fun other isFound =>
      others other (sound.registered isFound).2
  have own := sessionOf_of_running isHandler running
  rw [unattached] at own
  have attached := Agrees.attach sound own isSession others
  rw [← lookup_insert_eq_update] at attached
  have same : machine.dispatcher.sendSessionResponseToClient connection handler response =
      { machine.dispatcher with
        sessionResponseCallbacks := machine.dispatcher.sessionResponseCallbacks.erase response.id
        userResponseCallbacks :=
          machine.dispatcher.userResponseCallbacks.insert response.sessionId connection
        handlers := machine.dispatcher.handlers.insert connection
          { handler with sessionId := response.sessionId, handshakeDone := true } } := by
    simp [sendSessionResponseToClient, success, registerUserResponseCallBack, isSession,
      unRegisterSessionResponseCallback, absent]
  rw [same, Sound, sessionOf_of_insert rfl, if_neg (by simp [running])]
  exact attached

theorem Sound.close (session : Int64) :
    Sound
      { dispatcher := machine.dispatcher.unregisterUserResponseCallBack session
        attached := machine.attached.filter (·.1 ≠ session) } := by
  have closed := Agrees.close sound session
  rw [← lookup_erase_eq_update] at closed
  exact closed

theorem Sound.close_absent
    (absent : machine.dispatcher.userResponseCallbacks.lookup session = none) :
    Sound { machine with attached := machine.attached.filter (·.1 ≠ session) } := by
  have closed := sound.close session
  have same : machine.dispatcher.unregisterUserResponseCallBack session = machine.dispatcher := by
    rw [unregisterUserResponseCallBack, erase_of_absent absent]
  rw [same] at closed
  exact closed

theorem Sound.next {call : ConnectionCall} (alone : machine.Alone call)
    (moves : machine.next myId nodeCount call = some after) : after.Sound := by
  cases call with
  | accept =>
    cases moves
    rw [Sound, withDispatcher, sessionOf_of_insert rfl]
    exact Agrees.accept sound
  | receiveHandshake connection previousSessionId timeoutMs =>
    rcases map_eq_some_iff.mp moves with ⟨⟨dispatcher, sent⟩, receives, rfl⟩
    rcases receiveHandshake_spec receives with
      ⟨handler, counter, isHandler, ⟨_, destroys⟩ | ⟨request, _, _, _, rfl⟩⟩
    · have countedSound : (machine.withDispatcher
          { machine.dispatcher with newSessionInternalIdCounter := counter }).Sound := sound
      exact countedSound.beginDestroy destroys
    · -- the id of the request is not looked at
      have same : (if handler.destroying then none else some handler.sessionId) =
          machine.dispatcher.sessionOf connection := by
        rw [sessionOf, isHandler]
      rw [Sound, sessionOf_of_insert rfl, same, update_eq_self]
      exact sound
  | sessionResponse route response =>
    rcases map_eq_some_iff.mp moves with ⟨⟨dispatcher, receiver⟩, invokes, rfl⟩
    rw [invokeSessionResponse] at invokes
    split at invokes
    · cases invokes
      simpa using sound
    next connection isRegistered =>
      rcases map_eq_some_iff.mp invokes with ⟨handler, isHandler, ⟨⟩⟩
      cases success : response.success with
      | false =>
        simpa [sendSessionResponseToClient, success] using sound
      | true =>
        rcases alone success with ⟨isSession, unattached, others⟩
        rcases unattached connection isRegistered handler isHandler with ⟨isFree, running⟩
        exact sound.attach isHandler success isSession isFree running others
  | userResponse session isClose =>
    rcases map_eq_some_iff.mp moves with ⟨⟨dispatcher, receiver⟩, invokes, rfl⟩
    rw [invokeUserResponse] at invokes
    split at invokes
    next absent =>
      cases invokes
      cases isClose with
      | false => exact sound
      | true => exact sound.close_absent absent
    next connection isRegistered =>
      rcases map_eq_some_iff.mp invokes with ⟨handler, isHandler, ⟨⟩⟩
      cases isClose with
      | false => exact sound
      | true => exact sound.close session
  | beginDestroy connection =>
    rcases map_eq_some_iff.mp moves with ⟨dispatcher, destroys, rfl⟩
    exact sound.beginDestroy destroys
  | endDestroy connection =>
    rcases map_eq_some_iff.mp moves with ⟨dispatcher, destroys, rfl⟩
    exact sound.endDestroy destroys

end

/-- The user responses and the watch events of a session go to the newest connection of it that is
alive, and as long as there is one the session is local. -/
theorem responses_to_newest {counter : Int64}
    (reached : ReachableBy (next myId nodeCount) Alone
      { dispatcher := { newSessionInternalIdCounter := counter } } machine) (session : Int64) :
    machine.dispatcher.userResponseCallbacks.lookup session = machine.newest session ∧
      (machine.dispatcher.isLocalSession session = (machine.newest session).isSome) ∧
      ∀ isClose dispatcher receiver,
        machine.dispatcher.invokeUserResponse session isClose = some (dispatcher, receiver) →
          receiver = machine.newest session := by
  have sound : machine.Sound := by
    refine ReachableBy.invariant Sound ?_ ?_ reached
    · constructor <;> simp [sessionOf]
    · intro before after call isSound alone moves
      exact isSound.next alone moves
  refine ⟨(sound.newest_eq session).symm, ?_, ?_⟩
  · rw [isLocalSession, sound.newest_eq]
  · intro isClose dispatcher receiver invokes
    rw [sound.newest_eq]
    rw [invokeUserResponse] at invokes
    split at invokes
    next absent =>
      cases invokes
      exact absent.symm
    next connection isRegistered =>
      rcases map_eq_some_iff.mp invokes with ⟨_, _, ⟨⟩⟩
      exact isRegistered.symm

def sampleRun : List ConnectionCall :=
  [.accept, .receiveHandshake 0 0 1000,
    .sessionResponse 1 { id := 1, sessionId := 5, success := true, isReconnected := false },
    .beginDestroy 0, .endDestroy 0, .accept, .receiveHandshake 1 5 1000,
    .sessionResponse 5 { id := 5, sessionId := 5, success := true, isReconnected := true }]

theorem responses_to_newest_sampleRun :
    ∃ machine, ReachableBy (next 1 3) Alone
        { dispatcher := { newSessionInternalIdCounter := 1 } } machine ∧
      machine.newest 5 = some 1 ∧
      machine.dispatcher.userResponseCallbacks.lookup 5 = machine.newest 5 := by
  exact exists_reached_of (·.newest 5 = some 1) sampleRun (by decide +kernel)
    fun reached isNewest => ⟨isNewest, (responses_to_newest reached 5).1⟩

def reconnectRun : List ConnectionCall :=
  [.accept, .receiveHandshake 0 0 1000,
    .sessionResponse 1 { id := 1, sessionId := 5, success := true, isReconnected := false },
    .accept, .receiveHandshake 1 5 1000,
    .sessionResponse 5 { id := 5, sessionId := 5, success := true, isReconnected := true }]

/-- The responses go to connection 0, and when it is destroyed the session is not local any more
although connection 1 is alive. -/
theorem reconnectRun_keeps_old :
    (∃ machine, ReachableBy (next 1 3) (fun _ _ => True)
        { dispatcher := { newSessionInternalIdCounter := 1 } } machine ∧
      machine.newest 5 = some 1 ∧
      (machine.dispatcher.invokeUserResponse 5 false).map (·.2) = some (some 0)) ∧
    ∃ machine, ReachableBy (next 1 3) (fun _ _ => True)
        { dispatcher := { newSessionInternalIdCounter := 1 } } machine ∧
      machine.newest 5 = some 1 ∧ machine.dispatcher.isLocalSession 5 = false := by
  constructor
  · exact exists_reached reconnectRun (by decide +kernel)
  · exact exists_reached (reconnectRun ++ [.beginDestroy 0, .endDestroy 0]) (by decide +kernel)

end Attachments

end RaftKeeper
