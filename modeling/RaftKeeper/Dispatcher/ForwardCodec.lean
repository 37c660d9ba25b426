import RaftKeeper.Dispatcher.WritePath
import RaftKeeper.Lib.Enumeration
import RaftKeeper.Store.SessionManager
import RaftKeeper.ZooKeeper.Strictness

/-!
# What a follower and the leader send each other

A package has a type, the length of its body, and the body. The leader answers with the ids of the
request, and the follower looks for a request with these ids among those that it has sent.
-/

namespace RaftKeeper

open List ZooReader

/-- The first byte of a package. -/
inductive ForwardType
  | unknown
  | handshake
  | syncSessions
  | newSession
  | updateSession
  | user
  | destroy
deriving DecidableEq

namespace ForwardType

/-- The byte of the enumerator; the one of `Unknown` is that of -1. -/
def code : ForwardType → UInt8
  | unknown => 255
  | handshake => 1
  | syncSessions => 2
  | newSession => 3
  | updateSession => 4
  | user => 5
  | destroy => 6

def ofCode (code : UInt8) : Option ForwardType :=
  match code.toNat with
  | 1 => some handshake
  | 2 => some syncSessions
  | 3 => some newSession
  | 4 => some updateSession
  | 5 => some user
  | 6 => some destroy
  | 255 => some unknown
  | _ => none

theorem ofCode_code (type : ForwardType) : ofCode type.code = some type := by
  cases type <;> rfl

end ForwardType

/-- A message from a follower to the leader. -/
structure ForwardPackage where
  type : ForwardType
  body : Bytes
deriving DecidableEq

/-- `ForwardRequest::write`; a handshake has a body of a fixed length. -/
def ForwardPackage.bytes (package : ForwardPackage) : Bytes :=
  package.type.code :: if package.type = .handshake then package.body else writeString package.body

def ForwardRequest.package : ForwardRequest → ForwardPackage
  | newSession xid request =>
    { type := .newSession, body := (Request.single (.newSession request)).frame xid }
  | updateSession xid request =>
    { type := .updateSession, body := (Request.single (.updateSession request)).frame xid }
  | user sessionId xid request =>
    { type := .user, body := writeInt64 sessionId ++ request.frame xid }

/-- The `readImpl` methods. Nothing is returned for a session request whose body holds another
request: the leader casts it and uses the null pointer. -/
def ForwardRequest.readImpl : ForwardType → ZooReader (Option ForwardRequest)
  | .newSession => do
      match ← frame with
      | (xid, .single (.newSession request)) => pure (some (newSession xid request))
      | _ => pure none
  | .updateSession => do
      match ← frame with
      | (xid, .single (.updateSession request)) => pure (some (updateSession xid request))
      | _ => pure none
  | .user => do
      let sessionId ← int64
      let (xid, request) ← frame
      pure (some (user sessionId xid request))
  | _ => pure none

/-- What the leader reads from a connection; a handshake or a report of sessions is no request. -/
def ForwardRequest.receive : ZooReader (Option ForwardRequest) := do
  let code ← uint8
  let size ← int32
  if size < 0 then throw .negativeBodyLength
  else
    let body ← Reader.takeStrict (.cannotReadAllData · size.toInt.toNat) size.toInt.toNat
    match (ForwardType.ofCode code).map fun type => (readImpl type).run' body with
    | some (.ok request) => pure request
    | some (.error exception) => throw exception
    | none => pure none

/-- What a forward response is matched by. -/
inductive ForwardIds
  | syncSessions
  | newSession (internalId : Int64)
  | updateSession (sessionId : Int64)
  | user (sessionId xid : Int64) (opNum : OpNum)

/-- The leader's answer to a package. -/
structure ForwardResponse where
  accepted : Bool := true
  errorCode : Int32 := 0
  ids : ForwardIds

namespace ForwardIds

def forwardType : ForwardIds → ForwardType
  | syncSessions => .syncSessions
  | newSession _ => .newSession
  | updateSession _ => .updateSession
  | user .. => .user

def writeImpl : ForwardIds → Bytes
  | syncSessions => []
  | newSession id | updateSession id => writeInt64 id
  | user sessionId xid opNum =>
    writeInt64 sessionId ++ (writeInt64 xid ++ writeInt32 opNum.raw)

/-- The end of the `readImpl` methods; nothing for a type that is no answer to a request. -/
def readImpl : ForwardType → ZooReader (Option ForwardIds)
  | .syncSessions => pure (some syncSessions)
  | .newSession => (fun id => some (newSession id)) <$> int64
  | .updateSession => (fun id => some (updateSession id)) <$> int64
  | .user => do
      let sessionId ← int64
      let xid ← int64
      let opNum ← opNum
      pure (some (user sessionId xid opNum))
  | .unknown | .handshake | .destroy => pure none

end ForwardIds

namespace ForwardResponse

def setAppendEntryResult (response : ForwardResponse) (accepted : Bool) (errorCode : Int32) :
    ForwardResponse := { response with accepted, errorCode }

def write (response : ForwardResponse) : Bytes :=
  [response.ids.forwardType.code] ++ (writeBool response.accepted ++
    (writeInt32 response.errorCode ++ response.ids.writeImpl))

/-- `ForwardConnection::receive`; nothing is the exception for a type that is not expected. -/
def receive : ZooReader (Option ForwardResponse) := do
  let code ← uint8
  match ForwardType.ofCode code with
  | none => pure none
  | some type =>
    let accepted ← bool
    let errorCode ← int32
    let ids ← ForwardIds.readImpl type
    pure (ids.map fun ids => { accepted, errorCode, ids })

end ForwardResponse

/-- An entry of the queue of requests that wait for a forward response. -/
inductive Outstanding
  | request (request : ForwardRequest)
  | syncSessions (sessions : Dict Int64 Int64)

namespace Outstanding

def forwardType : Outstanding → ForwardType
  | request forwarded => forwarded.package.type
  | syncSessions _ => .syncSessions

def makeResponse : Outstanding → ForwardResponse
  | request (.newSession _ body) => { ids := .newSession body.internalId }
  | request (.updateSession _ body) => { ids := .updateSession body.sessionId }
  | request (.user sessionId xid body) => { ids := .user sessionId xid.toInt64 body.getOpNum }
  | syncSessions _ => { ids := .syncSessions }

/-- What a response has to agree with to remove the request. -/
def identity : Outstanding → ForwardType × Int64 × Int32
  | request (.newSession _ body) => (.newSession, body.internalId, 0)
  | request (.updateSession _ body) => (.updateSession, body.sessionId, 0)
  | request (.user sessionId xid _) => (.user, sessionId, xid)
  | syncSessions _ => (.syncSessions, 0, 0)

end Outstanding

/-- The `match` methods. -/
def ForwardIds.matches : ForwardIds → Outstanding → Bool
  | syncSessions, other => other.forwardType = .syncSessions
  | newSession id, .request (.newSession _ body) => body.internalId = id
  | updateSession id, .request (.updateSession _ body) => body.sessionId = id
  | user sessionId xid _, .request (.user otherId otherXid _) =>
    otherId = sessionId && otherXid.toInt64 = xid
  | _, _ => false

/-- The test of `RequestForwarder::removeFromQueue`. -/
def ForwardResponse.removes (response : ForwardResponse) (other : Outstanding) : Bool :=
  other.forwardType = response.ids.forwardType && response.ids.matches other

theorem ForwardResponse.receive_makeResponse (request : Outstanding) (accepted : Bool)
    (errorCode : Int32) :
    receive.Reads (request.makeResponse.setAppendEntryResult accepted errorCode).write
      (some (request.makeResponse.setAppendEntryResult accepted errorCode)) := by
  have reads : (ForwardIds.readImpl request.makeResponse.ids.forwardType).Reads
      request.makeResponse.ids.writeImpl (some request.makeResponse.ids) := by
    unfold Outstanding.makeResponse
    split
    · exact (reads_int64 _).map _
    · exact (reads_int64 _).map _
    next body =>
      apply (reads_int64 _).bind
      apply (reads_int64 _).bind
      exact (reads_opNum (getOpNum_specified body)).last _
    · exact .pure _
  apply (reads_uint8 _).bind
  rw [ForwardType.ofCode_code]
  apply (reads_bool _).bind
  apply (reads_int32 _).bind
  exact reads.last _

theorem ForwardResponse.removes_iff (request other : Outstanding) (accepted : Bool)
    (errorCode : Int32) :
    (request.makeResponse.setAppendEntryResult accepted errorCode).removes other = true ↔
      other.identity = request.identity := by
  have widened (left right : Int32) : left.toInt64 = right.toInt64 ↔ left = right :=
    ⟨fun same => by simpa using congrArg Int64.toInt32 same, congrArg _⟩
  unfold ForwardResponse.removes
  rcases request with (_ | _ | _) | _ <;> rcases other with (_ | _ | _) | _ <;>
    simp [Outstanding.identity, Outstanding.makeResponse, Outstanding.forwardType,
      ForwardRequest.package, ForwardResponse.setAppendEntryResult, ForwardIds.forwardType,
      ForwardIds.matches, widened]

def ZooReader.session : ZooReader (Int64 × Int64) := do
  let session ← int64
  let expirationTime ← int64
  pure (session, expirationTime)

def ZooReader.sessions : ZooReader (Dict Int64 Int64) := do
  let size ← int32
  let entries ← Reader.readTimes session size.toInt.toNat
  pure (entries.foldl (fun sessions entry =>
    SessionManager.emplaceTimeout sessions entry.1 entry.2) ∅)

end RaftKeeper
