import RaftKeeper.Lib.Reader
import RaftKeeper.ZooKeeper.Types

/-!
# Reading requests

`Coordination::read` of `ZooKeeperIO.cpp`, the `readImpl` methods of `ZooKeeperCommon.cpp` and
`ZooKeeperRequestFactory`. Integers are read strictly. The bytes of a string are not: a string that
is cut off by the end of the input is filled up with zeros.
-/

namespace RaftKeeper

open Reader

/-- The exceptions of the decoder. -/
inductive ReadError
  /-- "Cannot read all data. Bytes read: {}. Bytes expected: {}." -/
  | cannotReadAllData (read expected : ℕ)
  /-- "Negative size while reading string from ZooKeeper" -/
  | negativeStringSize
  /-- "Too large string size while reading from ZooKeeper" -/
  | tooLargeStringSize
  /-- "Negative size while reading array from ZooKeeper" -/
  | negativeArraySize
  /-- "Too large array size while reading from ZooKeeper" -/
  | tooLargeArraySize
  /-- "Operation {} is unknown" -/
  | unknownOpNum (raw : Int32)
  /-- "Unknown operation type {}" -/
  | unknownOperationType (opNum : OpNum)
  /-- "Unexpected op_num received at the end of results for multi transaction" -/
  | unexpectedOpNum
  /-- "Unexpected error value received at the end of results for multi transaction" -/
  | unexpectedErrorValue
  /-- "Not enough results received for multi transaction" -/
  | notEnoughResults
  /-- What `FIFOBuffer` throws for the negative length of a forwarded package. -/
  | negativeBodyLength
deriving DecidableEq

/-- A decoder of the ZooKeeper protocol. -/
abbrev ZooReader := Reader ReadError

/-- `MAX_STRING_OR_ARRAY_SIZE`. -/
def maxStringOrArraySize : ℕ := 2 ^ 28

/-- What a `WriteBufferFromNuraftBuffer` can hold: its buffer is doubled from 32 bytes on, and
`nuraft::buffer::alloc` throws for 2^31 bytes. -/
def nuraftBufferSize : ℕ := 2 ^ 30

/-- `WriteBufferFromNuraftBuffer::getBuffer`; no result is an exception of a write before. -/
def getBuffer (written : Bytes) : Option Bytes :=
  if written.length ≤ nuraftBufferSize then some written else none

namespace ZooReader

/-- The bytes of a fixed-width integer, as a number. -/
def word (width : ℕ) : ZooReader ℕ :=
  ofBigEndian <$> takeStrict (.cannotReadAllData · width) width

def int32 : ZooReader Int32 := Int32.ofNat <$> word 4

def int64 : ZooReader Int64 := Int64.ofNat <$> word 8

def uint8 : ZooReader UInt8 := UInt8.ofNat <$> word 1

def bool : ZooReader Bool := (fun byte => byte ≠ 0) <$> uint8

def string : ZooReader Bytes := do
  let size ← int32
  if size = -1 then pure []
  else if size < 0 then throw .negativeStringSize
  else if maxStringOrArraySize < size.toInt.toNat then throw .tooLargeStringSize
  else takePadded size.toInt.toNat

def vector {α : Type} (element : ZooReader α) : ZooReader (List α) := do
  let size ← int32
  if size < 0 then throw .negativeArraySize
  else if maxStringOrArraySize < size.toInt.toNat then throw .tooLargeArraySize
  else readTimes element size.toInt.toNat

def acl : ZooReader ACL := do
  let permissions ← int32
  let scheme ← string
  let id ← string
  pure { permissions, scheme, id }

end ZooReader

def getOpNum (raw : Int32) : Option OpNum :=
  match raw.toInt with
  | -11 => some .close
  | -10 => some .newSession
  | -1 => some .error
  | 1 => some .create
  | 2 => some .remove
  | 3 => some .exists
  | 4 => some .get
  | 5 => some .set
  | 6 => some .getACL
  | 7 => some .setACL
  | 8 => some .simpleList
  | 9 => some .sync
  | 11 => some .heartbeat
  | 12 => some .list
  | 13 => some .check
  | 14 => some .multi
  | 22 => some .multiRead
  | 100 => some .auth
  | 101 => some .setWatches
  | 500 => some .filteredList
  | 501 => some .checkNotExists
  | 502 => some .createIfNotExists
  | 997 => some .oldNewSession
  | 998 => some .updateSession
  | _ => none

namespace ZooReader

def opNum : ZooReader OpNum := do
  let raw ← int32
  match getOpNum raw with
  | some opNum => pure opNum
  | none => throw (.unknownOpNum raw)

def list (kind : ZooReader ListKind) : ZooReader SingleRequest := do
  let path ← string
  let hasWatch ← bool
  let kind ← kind
  pure (.list kind path hasWatch)

def create (notExists : Bool) : ZooReader SingleRequest := do
  let path ← string
  let data ← string
  let acls ← vector acl
  let flags ← int32
  pure (.create
    { path, data, acls, notExists
      isEphemeral := flags &&& 1 ≠ 0
      isSequential := flags &&& 2 ≠ 0 })

def check (notExists : Bool) : ZooReader SingleRequest := do
  let path ← string
  let version ← int32
  pure (.check { path, version, notExists })

def single : OpNum → ZooReader SingleRequest
  | .heartbeat => pure .heartbeat
  | .sync => .sync <$> string
  | .auth => do
      let type ← int32
      let scheme ← string
      let data ← string
      pure (.auth type scheme data)
  | .close => pure .close
  | .create => create false
  | .createIfNotExists => create true
  | .remove => do
      let path ← string
      let version ← int32
      pure (.remove { path, version })
  | .exists => do
      let path ← string
      let hasWatch ← bool
      pure (.exists path hasWatch)
  | .get => do
      let path ← string
      let hasWatch ← bool
      pure (.get path hasWatch)
  | .set => do
      let path ← string
      let data ← string
      let version ← int32
      pure (.set { path, data, version })
  | .simpleList => list (pure .simple)
  | .list => list (pure .full)
  | .filteredList => list (.filtered <$> uint8)
  | .check => check false
  | .checkNotExists => check true
  | .newSession => do
      let internalId ← int64
      let sessionTimeoutMs ← int32
      let serverId ← int32
      pure (.newSession { internalId, sessionTimeoutMs, serverId })
  | .updateSession => do
      let sessionId ← int64
      let sessionTimeoutMs ← int64
      let serverId ← int32
      pure (.updateSession { sessionId, sessionTimeoutMs, serverId })
  | .setWatches => do
      let relativeZxid ← int64
      let dataWatches ← vector string
      let existWatches ← vector string
      let listWatches ← vector string
      pure (.setWatches { relativeZxid, dataWatches, existWatches, listWatches })
  | .getACL => .getACL <$> string
  | .setACL => do
      let path ← string
      let acls ← vector acl
      let version ← int32
      pure (.setACL { path, acls, version })
  | opNum => throw (.unknownOperationType opNum)

/-- The type that `registerZooKeeperRequest` gives a Multi. -/
def multiOperationType : OpNum → Option OperationType
  | .multi => some .write
  | .multiRead => some .read
  | _ => none

/-- The end of a round: a sub-request has been read, and another round follows. -/
def multiRest (loop : ZooReader (List Request)) (request : Request) : ZooReader (List Request) := do
  let input ← get
  if input.isEmpty then throw .notEnoughResults
  else
    let rest ← loop
    pure (request :: rest)

/-- One round of `ZooKeeperMultiRequest::readImpl`; `loop` reads what follows, and a
Multi inside. -/
def multiRound (loop : ZooReader (List Request)) : ZooReader (List Request) := do
  let opNum ← opNum
  let done ← bool
  let error ← int32
  if done then
    if opNum ≠ .error then throw .unexpectedOpNum
    else if error ≠ -1 then throw .unexpectedErrorValue
    else pure []
  else
    match multiOperationType opNum with
    | some type => (Request.multi type <$> loop) >>= multiRest loop
    | none => (Request.single <$> single opNum) >>= multiRest loop

/--
`ZooKeeperMultiRequest::readImpl`. Every round takes nine bytes or more, so with as much
fuel as there are bytes the fuel ends where the input does.
-/
def multi : ℕ → ZooReader (List Request)
  | 0 => throw (.cannotReadAllData 0 4)
  | fuel + 1 => multiRound (multi fuel)

def request (opNum : OpNum) : ZooReader Request :=
  match multiOperationType opNum with
  | some type => do
      let input ← get
      Request.multi type <$> multi input.length
  | none => .single <$> single opNum

/-- The requests that end with a string or with a list of strings. -/
def endsInString : OpNum → Bool
  | .sync | .getACL | .auth | .setWatches => true
  | _ => false

theorem takes_word (width : ℕ) : (word width).Takes True := (Takes.takeStrict _ width).map _

theorem takes_int32 : int32.Takes True := (takes_word 4).map _

theorem takes_int64 : int64.Takes True := (takes_word 8).map _

theorem takes_uint8 : uint8.Takes True := (takes_word 1).map _

theorem takes_bool : bool.Takes True := takes_uint8.map _

theorem stops_int32 : int32.Stops := nofun

theorem takes_string : string.Takes False := by
  apply (takes_int32.always).bind
  intro size
  split
  · exact .pure []
  · split
    · exact .throw _
    · split
      · exact .throw _
      · exact .takePadded _

theorem takes_vector {α : Type} {element : ZooReader α} (takes : element.Takes False) :
    (vector element).Takes False := by
  apply (takes_int32.always).bind
  intro size
  split
  · exact .throw _
  · split
    · exact .throw _
    · exact takes.readTimes _

theorem takes_acl : acl.Takes False :=
  (takes_int32.always).bind fun _ => takes_string.bind fun _ => takes_string.bind fun _ =>
    .pure _

theorem takes_opNum : opNum.Takes True := by
  apply takes_int32.bind
  intro raw
  split
  · exact .pure _
  · exact .throw _

theorem stops_opNum : opNum.Stops := stops_int32.bind _

theorem takes_single (opNum : OpNum) : (single opNum).Takes (endsInString opNum = false) := by
  have readsAcls := takes_vector takes_acl
  have readsStrings := takes_vector takes_string
  have readsVersion : ∀ make : Int32 → SingleRequest, Takes True (do
      let version ← int32
      pure (make version) : ZooReader SingleRequest) := fun _ => takes_int32.bind fun _ => .pure _
  have readsCreate : ∀ notExists, (create notExists).Takes True := fun _ =>
    takes_string.bind_of_stops (fun _ => takes_string.bind_of_stops (fun _ =>
      readsAcls.bind_of_stops (fun _ => readsVersion _) fun _ => nofun) fun _ => nofun) fun _ =>
        nofun
  have readsCheck : ∀ notExists, (check notExists).Takes True := fun _ =>
    takes_string.bind_of_stops (fun _ => readsVersion _) fun _ => nofun
  have readsList : ∀ kind : ZooReader ListKind, kind.Takes True → (list kind).Takes True :=
    fun _ readsKind => takes_string.bind_of_stops (fun _ => takes_bool.bind fun _ =>
      readsKind.bind fun _ => .pure _) fun _ => nofun
  have readsWatch : ∀ make : Bytes → Bool → SingleRequest, Takes True (do
      let path ← string
      let hasWatch ← bool
      pure (make path hasWatch) : ZooReader SingleRequest) := fun _ =>
    takes_string.bind_of_stops (fun _ => takes_bool.bind fun _ => .pure _) fun _ => nofun
  cases opNum with
  | heartbeat | close => exact .pure _
  | create | createIfNotExists => exact (readsCreate _).always
  | check | checkNotExists => exact (readsCheck _).always
  | remove => exact (takes_string.bind_of_stops (fun _ => readsVersion _) fun _ => nofun).always
  | «exists» | get => exact (readsWatch _).always
  | set =>
    exact (takes_string.bind_of_stops (fun _ => takes_string.bind_of_stops
      (fun _ => readsVersion _) fun _ => nofun) fun _ => nofun).always
  | simpleList | list => exact (readsList _ (.pure _)).always
  | filteredList => exact (readsList _ (takes_uint8.map _)).always
  | setACL =>
    exact (takes_string.bind_of_stops (fun _ => readsAcls.bind_of_stops
      (fun _ => readsVersion _) fun _ => nofun) fun _ => nofun).always
  | newSession =>
    exact (takes_int64.bind fun _ => takes_int32.bind fun _ => readsVersion _).always
  | updateSession =>
    exact (takes_int64.bind fun _ => takes_int64.bind fun _ => readsVersion _).always
  | sync | getACL => exact (takes_string.map _).mono nofun
  | auth =>
    have reads := (@Takes.always _ _ _ False takes_int32).bind fun type =>
      takes_string.bind fun scheme => takes_string.bind fun data =>
        .pure (SingleRequest.auth type scheme data)
    exact reads.mono nofun
  | setWatches =>
    have reads := (@Takes.always _ _ _ False takes_int64).bind fun relativeZxid =>
      readsStrings.bind fun dataWatches => readsStrings.bind fun existWatches =>
        readsStrings.bind fun listWatches => .pure (SingleRequest.setWatches
          { relativeZxid, dataWatches, existWatches, listWatches })
    exact reads.mono nofun
  | unspecified | error | multi | multiRead | oldNewSession => exact .throw _

variable {loop : ZooReader (List Request)}

theorem reads_multiRest {requests : List Request} {bytes : Bytes}
    (rest : loop.Reads bytes requests) (follows : bytes ≠ []) (request : Request) :
    (multiRest loop request).Reads bytes (request :: requests) := by
  intro left
  have notEmpty : (bytes ++ left).isEmpty = false := by
    simp [follows]
  rw [multiRest, StateT.run_bind, StateT.run_get]
  simp only [bind_pure_comp, pure_bind, notEmpty, Bool.false_eq_true, if_false]
  exact (rest.map (request :: ·)) left

theorem takes_multiRest (takes : loop.Takes True) (stops : loop.Stops) (request : Request) :
    (multiRest loop request).Takes True := by
  intro input value rest succeeds
  cases input with
  | nil => cases succeeds
  | cons byte more =>
    rcases run_bind_eq_ok succeeds with ⟨peeked, _, gotInput, continued⟩
    cases gotInput
    rcases run_bind_eq_ok continued with ⟨requests, _, ran, ends⟩
    cases ends
    rcases takes _ _ _ ran with ⟨used, split, reads⟩
    have follows : used ≠ [] := by
      rintro rfl
      exact stops _ (reads (.inl trivial) [])
    exact ⟨used, split, fun _ => reads_multiRest (reads (.inl trivial)) follows request⟩

theorem stops_multi (fuel : ℕ) : (multi fuel).Stops := by
  cases fuel with
  | zero => nofun
  | succ fuel => exact stops_opNum.bind _

theorem takes_multi (fuel : ℕ) : (multi fuel).Takes True := by
  induction fuel with
  | zero => exact .throw _
  | succ fuel ih =>
    have readsRest := takes_multiRest ih (stops_multi fuel)
    apply takes_opNum.bind
    intro opNum
    apply takes_bool.bind
    intro done
    apply takes_int32.bind
    intro error
    split
    · split
      · exact .throw _
      · split
        · exact .throw _
        · exact .pure []
    · split
      · exact (ih.map _).bind readsRest
      · exact (((takes_single opNum).map _).mono False.elim).bind_of_stops readsRest fun _ => nofun

variable {input : List UInt8} {other : ZooReader (List Request)}

theorem run_multiRest_congr (same : loop.run input = other.run input) (request : Request) :
    (multiRest loop request).run input = (multiRest other request).run input := by
  apply run_bind_congr rfl
  intro peeked left gotInput
  cases gotInput
  split
  · rfl
  · exact run_bind_congr same fun _ _ _ => rfl

theorem run_multiRound_congr (takes : other.Takes True)
    (same : ∀ left, left.length < input.length → loop.run left = other.run left) :
    (multiRound loop).run input = (multiRound other).run input := by
  apply run_bind_congr rfl
  intro opNum afterOpNum opNumRead
  have opNumTaken := takes_opNum.length_lt stops_opNum opNumRead
  apply run_bind_congr rfl
  intro done afterDone doneRead
  have doneTaken := takes_bool.length_le doneRead
  apply run_bind_congr rfl
  intro error afterError errorRead
  have errorTaken := takes_int32.length_le errorRead
  split
  · rfl
  · split
    · apply run_bind_congr
      · rw [StateT.run_map, StateT.run_map, same afterError (by omega)]
      · intro request left requestRead
        have taken := (takes.map _).length_le requestRead
        exact run_multiRest_congr (same left (by omega)) request
    · apply run_bind_congr rfl
      intro request left requestRead
      have taken := ((takes_single opNum).map _).length_le requestRead
      exact run_multiRest_congr (same left (by omega)) request

theorem run_multi_of_enough {fuel other : ℕ} (enough : input.length ≤ fuel)
    (otherEnough : input.length ≤ other) : (multi fuel).run input = (multi other).run input := by
  induction fuel generalizing other input with
  | zero =>
    have empty := List.length_eq_zero_iff.mp (Nat.le_zero.mp enough)
    rw [empty]
    cases other <;> rfl
  | succ fuel ih =>
    cases other with
    | zero =>
      have empty := List.length_eq_zero_iff.mp (Nat.le_zero.mp otherEnough)
      rw [empty]
      rfl
    | succ other =>
      apply run_multiRound_congr (takes_multi other)
      intro left shorter
      apply ih
      · omega
      · omega

/-- The Multi reader, with as much fuel as there are bytes. -/
def multiAll : ZooReader (List Request) := fun input => (multi input.length).run input

theorem takes_multiAll : multiAll.Takes True := by
  intro input value rest succeeds
  rcases takes_multi input.length input value rest succeeds with ⟨used, split, _⟩
  refine ⟨used, split, fun _ more => ?_⟩
  -- The fuel of the other input has to be enough for both.
  have enough : input.length ≤ input.length + more.length := Nat.le_add_right ..
  have ran : (multi (input.length + more.length)).run input = .ok (value, rest) :=
    (run_multi_of_enough enough le_rfl).trans succeeds
  rcases takes_multi _ input value rest ran with ⟨again, splitAgain, reads⟩
  cases List.append_cancel_right (split.symm.trans splitAgain)
  refine (run_multi_of_enough le_rfl ?_).trans (reads (.inl trivial) more)
  rw [split]
  simp only [List.length_append]
  omega

theorem run_multi_round (input : List UInt8) :
    multiAll.run input = (multiRound multiAll).run input := by
  have more : (multi input.length).run input = (multi (input.length + 1)).run input :=
    run_multi_of_enough le_rfl (Nat.le_succ _)
  refine more.trans (run_multiRound_congr takes_multiAll fun left shorter => ?_)
  exact run_multi_of_enough shorter.le le_rfl

/-- The `xid` and the body of a request. -/
def frame : ZooReader (Int32 × Request) := do
  let xid ← int32
  let opNum ← opNum
  let request ← request opNum
  pure (xid, request)

end ZooReader

/-- `ConnectionHandler::receiveRequest`, with the bytes of a frame. -/
def receiveRequest (bytes : Bytes) : Except ReadError (Int32 × Request) :=
  ZooReader.frame.run' bytes

end RaftKeeper
