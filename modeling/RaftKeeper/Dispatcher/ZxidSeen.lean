import RaftKeeper.Dispatcher.Callbacks
import RaftKeeper.Store.LocalReads
import RaftKeeper.Store.Stamps
import RaftKeeper.ZooKeeper.Encode

/-!
# The zxid that a client has seen

A client that reconnects says which zxid it has seen last, and a server that is behind refuses it.
The server compares with the counter of the store. The reply to a write carries the counter before
the write has advanced it, so a server that has applied everything but the write a client has seen
last takes the client in.
-/

namespace RaftKeeper

open List

def clientHandshakeLength : Int32 := 44

def clientHandshakeLengthWithReadonly : Int32 := 45

def zooKeeperProtocolVersion : Int32 := 0

def passwordLength : ℕ := 16

/-- The exceptions of `receiveHandshake`. -/
inductive HandshakeError
  /-- "Unexpected handshake length received: {}" -/
  | unexpectedLength (length : Int32)
  /-- "Unexpected protocol version: {}" -/
  | unexpectedProtocolVersion (version : Int32)
  /-- "Refusing session request  as it has seen zxid {} our last zxid is {} client must try
  another server" -/
  | seenZxid (lastZxidSeen lastZxid : Int64)
  /-- "Unexpected array size while reading from ZooKeeper" -/
  | unexpectedArraySize
  | cantRead (error : ReadError)

abbrev HandshakeReader := Reader HandshakeError

def ZooReader.inHandshake {α : Type} (reader : ZooReader α) : HandshakeReader α := fun input =>
  (reader.run input).mapError .cantRead

/-- `read` for an array of characters; where the input ends the array stays zero. -/
def HandshakeReader.passwd : HandshakeReader Bytes := do
  let size ← ZooReader.int32.inHandshake
  if size ≠ Int32.ofNat passwordLength then throw .unexpectedArraySize
  else Reader.takePadded passwordLength

/-- Whether the client is content with a server that only reads; older clients do not say so. -/
def HandshakeReader.readonly (handshakeReqLen : Int32) : HandshakeReader Bool :=
  if handshakeReqLen = clientHandshakeLengthWithReadonly then ZooReader.bool.inHandshake
  else pure false

/-- The bounds that the server puts on the timeout of a session. -/
structure SessionTimeouts where
  minSessionTimeout : Int64
  maxSessionTimeout : Int64

def SessionTimeouts.negotiate (limits : SessionTimeouts) (timeoutMs : Int32) : Int32 :=
  if timeoutMs ≠ 0 then
    (max limits.minSessionTimeout
      (min (timeoutMs * 1000).toInt64 limits.maxSessionTimeout) / 1000).toInt32
  else timeoutMs

/-- The fields that the server reads from an accepted handshake. -/
structure Handshake where
  timeoutMs : Int32
  previousSessionId : Int64
  passwd : Bytes
  readonly : Bool

def isHandShake (handshakeLength : Int32) : Bool :=
  handshakeLength = clientHandshakeLength || handshakeLength = clientHandshakeLengthWithReadonly

def readHandshake (limits : SessionTimeouts) (lastZxid : Int64) (handshakeReqLen : Int32) :
    HandshakeReader Handshake :=
  if !isHandShake handshakeReqLen then throw (.unexpectedLength handshakeReqLen)
  else do
    let protocolVersion ← ZooReader.int32.inHandshake
    if protocolVersion ≠ zooKeeperProtocolVersion then
      throw (.unexpectedProtocolVersion protocolVersion)
    else do
      let lastZxidSeen ← ZooReader.int64.inHandshake
      let timeoutMs ← ZooReader.int32.inHandshake
      if lastZxid < lastZxidSeen then throw (.seenZxid lastZxidSeen lastZxid)
      else do
        let previousSessionId ← ZooReader.int64.inHandshake
        let passwd ← HandshakeReader.passwd
        let readonly ← HandshakeReader.readonly handshakeReqLen
        pure { timeoutMs := limits.negotiate timeoutMs, previousSessionId, passwd, readonly }

def KeeperStore.getLastProcessedZxid (store : KeeperStore) : Int64 := store.zxid

/-- `ConnectionHandler::receiveHandshake`; the dispatcher is left as it is where it throws. -/
def KeeperDispatcher.receiveHandshakeFrame (dispatcher : KeeperDispatcher)
    (limits : SessionTimeouts) (store : KeeperStore) (myId : Int32) (clusterNodeCount : Int64)
    (connection : ℕ) (handshakeReqLen : Int32) (body : Bytes) :
    Except HandshakeError (Option (KeeperDispatcher × Option RequestForSession)) :=
  ((readHandshake limits store.getLastProcessedZxid handshakeReqLen).run body).map fun read =>
    dispatcher.receiveHandshake myId clusterNodeCount connection read.1.previousSessionId
      read.1.timeoutMs

/-- The handshake as a client writes it; old clients leave out `readonly`. -/
structure HandshakeFrame where
  lastZxidSeen : Int64
  timeoutMs : Int32
  previousSessionId : Int64 := 0
  passwd : Bytes := replicate passwordLength 0
  readonly : Option Bool := none

namespace HandshakeFrame

def length (frame : HandshakeFrame) : Int32 :=
  if frame.readonly.isSome then clientHandshakeLengthWithReadonly else clientHandshakeLength

def toBytes (frame : HandshakeFrame) : Bytes :=
  writeInt32 zooKeeperProtocolVersion ++ (writeInt64 frame.lastZxidSeen ++
    (writeInt32 frame.timeoutMs ++ (writeInt64 frame.previousSessionId ++
      (writeString frame.passwd ++ match frame.readonly with
        | some readonly => writeBool readonly
        | none => []))))

end HandshakeFrame

theorem ZooReader.reads_inHandshake {α : Type} {reader : ZooReader α} {bytes : Bytes} {value : α}
    (reads : reader.Reads bytes value) : reader.inHandshake.Reads bytes value := by
  intro rest
  have ran := reads rest
  simp only [StateT.run, inHandshake] at ran ⊢
  rw [ran]
  rfl

theorem HandshakeReader.reads_passwd {value : Bytes} (isPassword : value.length = passwordLength) :
    HandshakeReader.passwd.Reads (writeString value) value := by
  rw [writeString, isPassword]
  apply (ZooReader.reads_inHandshake (ZooReader.reads_int32 _)).bind
  rw [if_neg (not_not_intro rfl), ← isPassword]
  exact Reader.reads_takePadded value

theorem HandshakeReader.reads_readonly (frame : HandshakeFrame) :
    (readonly frame.length).Reads
      (match frame.readonly with
        | some readonly => writeBool readonly
        | none => []) (frame.readonly.getD false) := by
  rw [HandshakeReader.readonly]
  cases isReadonly : frame.readonly with
  | none =>
    rw [if_neg (by rw [HandshakeFrame.length, isReadonly]; decide)]
    exact .pure false
  | some readonly =>
    rw [if_pos (by rw [HandshakeFrame.length, isReadonly]; rfl)]
    exact ZooReader.reads_inHandshake (ZooReader.reads_bool readonly)

namespace HandshakeFrame

variable {frame : HandshakeFrame} {lastZxid : Int64}

theorem isHandShake_length (frame : HandshakeFrame) : isHandShake frame.length = true := by
  rw [length]
  split <;> rfl

theorem fails_readHandshake (limits : SessionTimeouts) (isAbove : lastZxid < frame.lastZxidSeen) :
    (readHandshake limits lastZxid frame.length).Fails frame.toBytes
      (.seenZxid frame.lastZxidSeen lastZxid) := by
  rw [readHandshake, isHandShake_length, toBytes, if_neg (by decide)]
  apply (ZooReader.reads_inHandshake (ZooReader.reads_int32 _)).bind_fails
  rw [if_neg (not_not_intro rfl)]
  apply (ZooReader.reads_inHandshake (ZooReader.reads_int64 _)).bind_fails
  apply (ZooReader.reads_inHandshake (ZooReader.reads_int32 _)).bind_fails
  rw [if_pos isAbove]
  exact (Reader.fails_throw _).append _

theorem reads_readHandshake (limits : SessionTimeouts)
    (isPassword : frame.passwd.length = passwordLength)
    (notAbove : ¬ lastZxid < frame.lastZxidSeen) :
    (readHandshake limits lastZxid frame.length).Reads frame.toBytes
      { timeoutMs := limits.negotiate frame.timeoutMs
        previousSessionId := frame.previousSessionId
        passwd := frame.passwd
        readonly := frame.readonly.getD false } := by
  rw [readHandshake, isHandShake_length, toBytes, if_neg (by decide)]
  apply (ZooReader.reads_inHandshake (ZooReader.reads_int32 _)).bind
  rw [if_neg (not_not_intro rfl)]
  apply (ZooReader.reads_inHandshake (ZooReader.reads_int64 _)).bind
  apply (ZooReader.reads_inHandshake (ZooReader.reads_int32 _)).bind
  rw [if_neg notAbove]
  apply (ZooReader.reads_inHandshake (ZooReader.reads_int64 _)).bind
  apply (HandshakeReader.reads_passwd isPassword).bind
  apply Reader.Reads.last
  exact HandshakeReader.reads_readonly frame

end HandshakeFrame

theorem KeeperDispatcher.refuses_iff (dispatcher : KeeperDispatcher) (limits : SessionTimeouts)
    (store : KeeperStore) (myId : Int32) (clusterNodeCount : Int64) (connection : ℕ)
    {frame : HandshakeFrame} (isPassword : frame.passwd.length = passwordLength) :
    (∃ error, dispatcher.receiveHandshakeFrame limits store myId clusterNodeCount connection
      frame.length frame.toBytes = .error error) ↔ store.zxid < frame.lastZxidSeen := by
  rw [receiveHandshakeFrame, KeeperStore.getLastProcessedZxid]
  by_cases isAbove : store.zxid < frame.lastZxidSeen
  · have refuses := frame.fails_readHandshake limits isAbove []
    rw [append_nil] at refuses
    rw [refuses]
    exact ⟨fun _ => isAbove, fun _ => ⟨_, rfl⟩⟩
  · have reads := frame.reads_readHandshake limits isPassword isAbove []
    rw [append_nil] at reads
    rw [reads]
    exact ⟨nofun, fun above => absurd above isAbove⟩

/-- A server that has applied the first entries of a log, and reads that keep the zxid. -/
structure KeeperStore.Follows (platform : Platform) (log : List LogEntry)
    (start store : KeeperStore) (applied : ℕ) : Prop where
  within : applied ≤ log.length
  ran : ∃ calls, runMeets (next platform) quiet start calls ∧
    runFrom (next platform) start calls = some store ∧
    calls.filterMap committed = log.take applied

section

variable {platform : Platform} {replica last : Replicated} {entries log : List LogEntry}
  {start store : KeeperStore} {applied : ℕ}

def Replicated.applyAll (platform : Platform) (replica : Replicated) (entries : List LogEntry) :
    Option Replicated :=
  runFrom (fun replica entry => (apply platform replica entry).map Prod.fst) replica entries

theorem Replicated.zxid_applyAll (fits : replica.zxid.toInt + entries.length < 2 ^ 63)
    (applies : replica.applyAll platform entries = some last) :
    replica.zxid.toInt ≤ last.zxid.toInt ∧
      last.zxid.toInt ≤ replica.zxid.toInt + entries.length := by
  induction entries generalizing replica with
  | nil =>
    cases applies
    simp
  | cons entry rest ih =>
    rw [applyAll, runFrom] at applies
    cases appliesFirst : replica.apply platform entry with
    | none => simp [appliesFirst] at applies
    | some pair =>
      rcases pair with ⟨middle, reply⟩
      simp only [appliesFirst, Option.map_some] at applies
      rw [length_cons] at fits ⊢
      rcases (apply_zxid appliesFirst).1 with isSame | isNext
      · have later := ih (by rw [isSame]; omega) applies
        rw [isSame] at later
        omega
      · have notLast : replica.zxid ≠ Int64.maxValue := by
          intro isLast
          have isMax : Int64.maxValue.toInt = 2 ^ 63 - 1 := rfl
          rw [isLast] at fits
          omega
        have advanced : middle.zxid.toInt = replica.zxid.toInt + 1 := by
          rw [isNext, toInt_succ notLast]
        have later := ih (by omega) applies
        omega

theorem Replicated.zxid_le_of_applyAll {behind ahead : Replicated} {few many : ℕ}
    (fits : replica.zxid.toInt + log.length < 2 ^ 63) (isBehind : few ≤ many)
    (appliesFew : replica.applyAll platform (log.take few) = some behind)
    (appliesMany : replica.applyAll platform (log.take many) = some ahead) :
    replica.zxid.toInt ≤ behind.zxid.toInt ∧ behind.zxid.toInt ≤ ahead.zxid.toInt ∧
      ahead.zxid.toInt ≤ replica.zxid.toInt + log.length := by
  have splits : log.take many = log.take few ++ (log.drop few).take (many - few) := by
    rw [← take_add, Nat.add_sub_cancel' isBehind]
  have lengths : (log.take few).length + ((log.drop few).take (many - few)).length ≤
      log.length := by
    rw [← length_append, ← splits]
    exact length_take_le' many log
  have rest := appliesMany
  rw [splits, applyAll, runFrom_append, ← applyAll, appliesFew, Option.bind_some] at rest
  have start := zxid_applyAll (by omega) appliesFew
  have later := zxid_applyAll (by omega) rest
  omega

theorem KeeperStore.Follows.applyAll (follows : Follows platform log start store applied) :
    start.replicated.applyAll platform (log.take applied) = some store.replicated := by
  rcases follows.ran with ⟨calls, meets, runs, isLog⟩
  rw [← isLog]
  exact next_simulates meets runs

theorem KeeperStore.Follows.applyAll_succ (follows : Follows platform log start store applied)
    {call : Call} {after : KeeperStore} (served : call.Served)
    (isNext : log[applied]? = some call.entry) (moves : store.next platform call = some after) :
    start.replicated.applyAll platform (log.take (applied + 1)) = some after.replicated := by
  rcases processRequest_refines served after moves with ⟨reply, applies, _⟩
  rw [take_add_one, isNext, Replicated.applyAll, runFrom_append, ← Replicated.applyAll,
    follows.applyAll]
  simp [runFrom, applies]

theorem KeeperStore.Follows.zxid_ne_maxValue (follows : Follows platform log start store applied)
    (fits : start.replicated.zxid.toInt + log.length < 2 ^ 63) {entry : LogEntry}
    (isNext : log[applied]? = some entry) : store.replicated.zxid ≠ Int64.maxValue := by
  have isMax : Int64.maxValue.toInt = 2 ^ 63 - 1 := rfl
  have isBelow := (List.getElem?_eq_some_iff.mp isNext).1
  have isTaken := length_take_of_le follows.within
  have taken := (Replicated.zxid_applyAll (by omega) follows.applyAll).2
  intro isLast
  rw [isLast] at taken
  omega

/--
A client that has the reply to a write, whose zxid it has seen last, is refused by every
server that has not applied the write, unless the write is the one that takes the next zxid
of the server.
-/
theorem refused_or_applied_iff {leftStart left after rightStart right : KeeperStore} {call : Call}
    {reply : Reply} {leftApplied rightApplied : ℕ}
    (leftFollows : KeeperStore.Follows platform log leftStart left leftApplied)
    (rightFollows : KeeperStore.Follows platform log rightStart right rightApplied)
    (alike : leftStart.replicated = rightStart.replicated)
    (fits : leftStart.zxid.toInt + log.length < 2 ^ 63)
    (served : call.Served) (answered : call.ignoreResponse = false)
    (increases : call.request.request.shouldIncreaseZxid = true)
    (isNext : log[leftApplied]? = some call.entry)
    (moves : left.next platform call = some after)
    (replies : (left.processRequest platform call).reply = some reply)
    (dispatcher : KeeperDispatcher) (limits : SessionTimeouts) (myId : Int32)
    (clusterNodeCount : Int64) (connection : ℕ) (frame : HandshakeFrame)
    (isPassword : frame.passwd.length = passwordLength)
    (hasSeen : frame.lastZxidSeen = reply.zxid) :
    ((∃ error, dispatcher.receiveHandshakeFrame limits right myId clusterNodeCount connection
        frame.length frame.toBytes = .error error) ∨ leftApplied < rightApplied) ↔
      reply.zxid ≠ right.zxid := by
  rw [dispatcher.refuses_iff limits right myId clusterNodeCount connection isPassword, hasSeen]
  rcases KeeperStore.processRequest_refines served after moves with ⟨other, applies, sameReply⟩
  rw [sameReply answered] at replies
  rcases (Replicated.apply_zxid applies).2 reply replies with ⟨isZxid, advances⟩
  have rightRuns := rightFollows.applyAll
  rw [← alike] at rightRuns
  have fitsReplica : leftStart.replicated.zxid.toInt + log.length < 2 ^ 63 := fits
  rw [Int64.lt_iff_toInt_lt, Ne, ← Int64.toInt_inj, isZxid]
  have isCounter : right.replicated.zxid = right.zxid := rfl
  by_cases isApplied : leftApplied < rightApplied
  · -- the counter of the right server is past the zxid of the write
    have behind := Replicated.zxid_le_of_applyAll fitsReplica (Nat.succ_le_of_lt isApplied)
      (leftFollows.applyAll_succ served isNext moves) rightRuns
    have notLast := leftFollows.zxid_ne_maxValue fitsReplica isNext
    rw [advances increases, toInt_succ notLast, isCounter] at behind
    refine ⟨fun _ => ?_, fun _ => .inr isApplied⟩
    omega
  · have ahead := Replicated.zxid_le_of_applyAll fitsReplica (Nat.le_of_not_lt isApplied) rightRuns
      leftFollows.applyAll
    rw [isCounter] at ahead
    constructor
    · rintro (isAbove | isApplied)
      · omega
      · contradiction
    · intro differs
      left
      omega

end

def seenCall : Call := .sample 1 (.single (.create { path := ascii "/x" }))

def seenLog : List LogEntry := [Call.sampleSession.entry, seenCall.entry]

theorem exists_follows_seenLog :
    ∃ left after reply, KeeperStore.Follows .sample seenLog .sample left 1 ∧
      left.next .sample seenCall = some after ∧
      (left.processRequest .sample seenCall).reply = some reply ∧ reply.zxid = 1 ∧
      left.zxid = 1 ∧ ascii "/x" ∉ left.dataTree := by
  have meets : runMeets (KeeperStore.next .sample) KeeperStore.quiet .sample
      [Call.sampleSession] := by
    decide +kernel
  have runs : ∃ left, runFrom (KeeperStore.next .sample) .sample [Call.sampleSession] = some left ∧
      left.zxid = 1 ∧ ascii "/x" ∉ left.dataTree ∧ (left.next .sample seenCall).isSome ∧
      ∃ reply, (left.processRequest .sample seenCall).reply = some reply ∧ reply.zxid = 1 := by
    decide +kernel
  rcases runs with ⟨left, runs, isCounter, absent, present, reply, replies, isOne⟩
  rcases Option.isSome_iff_exists.mp present with ⟨after, moves⟩
  have follows : KeeperStore.Follows .sample seenLog .sample left 1 :=
    ⟨by decide, _, meets, runs, rfl⟩
  exact ⟨left, after, reply, follows, moves, replies, isOne, isCounter, absent⟩

def seenDispatcher : KeeperDispatcher :=
  KeeperDispatcher.accept { newSessionInternalIdCounter := 1 }

def seenFrame : HandshakeFrame where
  lastZxidSeen := 1
  timeoutMs := 1000

def SessionTimeouts.sample : SessionTimeouts where
  minSessionTimeout := 1000000
  maxSessionTimeout := 3600000000

/-- A server that has not opened the session refuses a client that has seen the node. -/
theorem refused_or_applied_iff_seenFrame :
    ∃ error, seenDispatcher.receiveHandshakeFrame .sample .sample 1 1 0 seenFrame.length
      seenFrame.toBytes = .error error := by
  rcases exists_follows_seenLog with ⟨left, after, reply, follows, moves, replies, isOne, _, _⟩
  have starts : KeeperStore.Follows .sample seenLog .sample .sample 0 :=
    ⟨by decide, [], trivial, rfl, rfl⟩
  have differs : reply.zxid ≠ KeeperStore.sample.zxid := by
    rw [isOne]
    decide
  have refused := (refused_or_applied_iff follows starts rfl (by decide) ⟨rfl, rfl⟩ rfl rfl rfl
    moves replies seenDispatcher .sample 1 1 0 seenFrame rfl isOne.symm).mpr differs
  exact refused.resolve_right (by decide)

/-- A server that has opened the session takes the client in, but does not have the node. -/
theorem seenNode_taken_in :
    ∃ left right after reply, KeeperStore.Follows .sample seenLog .sample left 1 ∧
      seenLog[1]? = some seenCall.entry ∧ left.next .sample seenCall = some after ∧
      (left.processRequest .sample seenCall).reply = some reply ∧
      seenFrame.lastZxidSeen = reply.zxid ∧
      KeeperStore.Follows .sample seenLog .sample right 1 ∧ ascii "/x" ∉ right.dataTree ∧
      ∃ dispatcher request, seenDispatcher.receiveHandshakeFrame .sample right 1 1 0
        seenFrame.length seenFrame.toBytes = .ok (some (dispatcher, some request)) := by
  rcases exists_follows_seenLog with
    ⟨left, after, reply, follows, moves, replies, isOne, isCounter, absent⟩
  refine ⟨left, left, after, reply, follows, rfl, moves, replies, isOne.symm, follows, absent, ?_⟩
  have notAbove : ¬ left.zxid < seenFrame.lastZxidSeen := by
    rw [isCounter]
    decide
  have reads := seenFrame.reads_readHandshake .sample rfl notAbove []
  rw [append_nil] at reads
  rw [KeeperDispatcher.receiveHandshakeFrame, KeeperStore.getLastProcessedZxid, reads]
  exact ⟨_, _, rfl⟩

end RaftKeeper
