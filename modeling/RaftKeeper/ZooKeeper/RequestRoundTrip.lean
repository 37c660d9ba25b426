import RaftKeeper.ZooKeeper.Encode

/-!
# Requests in the log

The `writeImpl` methods of `ZooKeeperCommon.cpp`, and `serializeKeeperRequest` and
`deserializeKeeperRequest` of `KeeperUtils.cpp`. The session id stands in front, least significant
byte first. The length in front of the request is never looked at by the reader; where the request
ends is known from its op code alone, so each part of a Multi is read back whatever stands behind
it.
-/

namespace RaftKeeper

open List Request ZooReader

/-- The values of `Coordination::OpNum`. -/
def OpNum.raw : OpNum → Int32
  | unspecified => -199
  | close => -11
  | newSession => -10
  | error => -1
  | create => 1
  | remove => 2
  | .exists => 3
  | get => 4
  | set => 5
  | getACL => 6
  | setACL => 7
  | simpleList => 8
  | sync => 9
  | heartbeat => 11
  | list => 12
  | check => 13
  | multi => 14
  | multiRead => 22
  | auth => 100
  | setWatches => 101
  | filteredList => 500
  | checkNotExists => 501
  | createIfNotExists => 502
  | oldNewSession => 997
  | updateSession => 998

theorem getOpNum_raw {opNum : OpNum} (specified : opNum ≠ .unspecified) :
    getOpNum opNum.raw = some opNum := by
  cases opNum with
  | unspecified => exact absurd rfl specified
  | _ => rfl

/-- The flags that `ZooKeeperCreateRequest::writeImpl` writes. -/
def CreateRequest.flags (request : CreateRequest) : Int32 :=
  (if request.isEphemeral then 1 else 0) ||| (if request.isSequential then 2 else 0)

theorem CreateRequest.flags_isEphemeral (request : CreateRequest) :
    decide (request.flags &&& 1 ≠ 0) = request.isEphemeral := by
  rw [flags]
  cases request.isEphemeral <;> cases request.isSequential <;> decide

theorem CreateRequest.flags_isSequential (request : CreateRequest) :
    decide (request.flags &&& 2 ≠ 0) = request.isSequential := by
  rw [flags]
  cases request.isEphemeral <;> cases request.isSequential <;> decide

namespace SingleRequest

def writeImpl : SingleRequest → Bytes
  | heartbeat => []
  | setWatches request =>
    writeInt64 request.relativeZxid ++ writeVector writeString request.dataWatches ++
      writeVector writeString request.existWatches ++ writeVector writeString request.listWatches
  | sync path => writeString path
  | auth type scheme data => writeInt32 type ++ writeString scheme ++ writeString data
  | close => []
  | create request =>
    writeString request.path ++ writeString request.data ++
      writeVector ACL.toBytes request.acls ++ writeInt32 request.flags
  | remove request => writeString request.path ++ writeInt32 request.version
  | .exists path hasWatch => writeString path ++ writeBool hasWatch
  | get path hasWatch => writeString path ++ writeBool hasWatch
  | set request =>
    writeString request.path ++ writeString request.data ++ writeInt32 request.version
  | list (.filtered listRequestType) path hasWatch =>
    writeString path ++ writeBool hasWatch ++ [listRequestType]
  | list .simple path hasWatch | list .full path hasWatch =>
    writeString path ++ writeBool hasWatch
  | check request => writeString request.path ++ writeInt32 request.version
  | setACL request =>
    writeString request.path ++ writeVector ACL.toBytes request.acls ++ writeInt32 request.version
  | getACL path => writeString path
  | newSession request =>
    writeInt64 request.internalId ++ writeInt32 request.sessionTimeoutMs ++
      writeInt32 request.serverId
  | updateSession request =>
    writeInt64 request.sessionId ++ writeInt64 request.sessionTimeoutMs ++
      writeInt32 request.serverId

end SingleRequest

namespace Request

/-- What stands in front of each sub-request of a Multi, and at its end. -/
def multiHeader (opNum : OpNum) (done : Bool) : Bytes :=
  writeInt32 opNum.raw ++ writeBool done ++ writeInt32 (-1)

mutual

def writeImpl : Request → Bytes
  | single request => request.writeImpl
  | multi _ requests => writeRequests requests

/-- `ZooKeeperMultiRequest::writeImpl`: the sub-requests, and the record that ends them. -/
def writeRequests : List Request → Bytes
  | [] => multiHeader .error true
  | request :: rest =>
    multiHeader request.getOpNum false ++ writeImpl request ++ writeRequests rest

end

def write (xid : Int32) (request : Request) : Bytes :=
  writeString (writeInt32 xid ++ writeInt32 request.getOpNum.raw ++ request.writeImpl)

end Request

/-- What `serializeKeeperRequest` writes to its buffer. -/
def RequestForSession.logBytes (request : RequestForSession) : Bytes :=
  littleEndian 8 request.sessionId.toUInt64.toNat ++ request.request.write request.xid ++
    writeInt64 request.processTime

/-- `serializeKeeperRequest`; nothing if the buffer cannot hold the bytes. -/
def serializeKeeperRequest (request : RequestForSession) : Option Bytes :=
  getBuffer request.logBytes

/-- `readIntBinary` of an `int64_t`. -/
def ZooReader.int64Binary : ZooReader Int64 :=
  (Int64.ofNat ∘ ofLittleEndian) <$> Reader.takeStrict (.cannotReadAllData · 8) 8

/-- `deserializeKeeperRequest`; the creation time is not in the log. -/
def deserializeKeeperRequest : ZooReader RequestForSession := do
  let sessionId ← int64Binary
  let _length ← int32
  let xid ← int32
  let opNum ← opNum
  let request ← request opNum
  let processTime ← int64
  pure { sessionId, xid, request, processTime }

def PathsReadable (paths : List Bytes) : Prop :=
  paths.length ≤ maxStringOrArraySize ∧ ∀ path ∈ paths, path.length ≤ maxStringOrArraySize

/-- Every string and every array of the request is short enough for the reader. -/
def SingleRequest.Readable : SingleRequest → Prop
  | heartbeat | close | newSession _ | updateSession _ => True
  | setWatches request =>
    PathsReadable request.dataWatches ∧ PathsReadable request.existWatches ∧
      PathsReadable request.listWatches
  | sync path | getACL path => path.length ≤ maxStringOrArraySize
  | auth _ scheme data =>
    scheme.length ≤ maxStringOrArraySize ∧ data.length ≤ maxStringOrArraySize
  | create request =>
    request.path.length ≤ maxStringOrArraySize ∧
      request.data.length ≤ maxStringOrArraySize ∧ request.acls.Readable
  | remove request => request.path.length ≤ maxStringOrArraySize
  | .exists path _ | get path _ | list _ path _ => path.length ≤ maxStringOrArraySize
  | set request =>
    request.path.length ≤ maxStringOrArraySize ∧ request.data.length ≤ maxStringOrArraySize
  | check request => request.path.length ≤ maxStringOrArraySize
  | setACL request => request.path.length ≤ maxStringOrArraySize ∧ request.acls.Readable

namespace Request

/-- The strings and arrays in a request and in all its sub-requests are short enough. -/
inductive Readable : Request → Prop
  | single {request : SingleRequest} (short : request.Readable) : Readable (.single request)
  | multi {type : OperationType} {requests : List Request}
      (short : ∀ request ∈ requests, Readable request) : Readable (.multi type requests)

/-- The Multis in a request have one of the two types that `ZooKeeperRequestFactory` gives them. -/
inductive Registered : Request → Prop
  | single (request : SingleRequest) : Registered (.single request)
  | multi {type : OperationType} {requests : List Request} (typed : type ≠ .unspecified)
      (registered : ∀ request ∈ requests, Registered request) : Registered (.multi type requests)

end Request

namespace ZooReader

variable {opNum : OpNum}

theorem reads_opNum (specified : opNum ≠ .unspecified) :
    ZooReader.opNum.Reads (writeInt32 opNum.raw) opNum := by
  rw [← append_nil (writeInt32 _)]
  apply (reads_int32 _).bind
  rw [getOpNum_raw specified]
  exact .pure opNum

theorem reads_uint8 (value : UInt8) : uint8.Reads [value] value := by
  have mapped := (reads_word 1 value.toNat_lt).map UInt8.ofNat
  rw [UInt8.ofNat_toNat] at mapped
  have single : bigEndian 1 value.toNat = [value] := by simp [bigEndian]
  rwa [single] at mapped

theorem reads_strings {paths : List Bytes} (readable : PathsReadable paths) :
    (vector string).Reads (writeVector writeString paths) paths :=
  reads_vector readable.1 fun path isMember => reads_string (readable.2 path isMember)

theorem reads_create {request : CreateRequest}
    (readable : (SingleRequest.create request).Readable) :
    (create request.notExists).Reads (SingleRequest.create request).writeImpl
      (.create request) := by
  rcases readable with ⟨shortPath, shortData, shortAcls⟩
  simp only [SingleRequest.writeImpl, append_assoc]
  apply (reads_string shortPath).bind
  apply (reads_string shortData).bind
  apply (reads_acls shortAcls).bind
  have flagsRead := Reader.Reads.last (fun flags : Int32 => SingleRequest.create
    { request with isEphemeral := flags &&& 1 ≠ 0, isSequential := flags &&& 2 ≠ 0 })
    (reads_int32 request.flags)
  rwa [request.flags_isEphemeral, request.flags_isSequential] at flagsRead

theorem reads_check {request : CheckRequest} (readable : (SingleRequest.check request).Readable) :
    (check request.notExists).Reads (SingleRequest.check request).writeImpl (.check request) := by
  apply (reads_string readable).bind
  exact Reader.Reads.last _ (reads_int32 request.version)

variable {bytes : Bytes}

theorem reads_list {kind : ZooReader ListKind} {value : ListKind} {path : Bytes} (hasWatch : Bool)
    (short : path.length ≤ maxStringOrArraySize) (readsKind : kind.Reads bytes value) :
    (list kind).Reads (writeString path ++ (writeBool hasWatch ++ bytes))
      (.list value path hasWatch) := by
  apply (reads_string short).bind
  apply (reads_bool hasWatch).bind
  exact .last _ readsKind

theorem reads_single {request : SingleRequest} (readable : request.Readable) :
    (single request.getOpNum).Reads request.writeImpl request := by
  cases request with
  | heartbeat | close => exact .pure _
  | sync path | getACL path => exact (reads_string readable).map _
  | setWatches request =>
    simp only [SingleRequest.writeImpl, append_assoc]
    apply (reads_int64 _).bind
    apply (reads_strings readable.1).bind
    apply (reads_strings readable.2.1).bind
    exact .last _ (reads_strings readable.2.2)
  | auth type scheme data =>
    simp only [SingleRequest.writeImpl, append_assoc]
    apply (reads_int32 type).bind
    apply (reads_string readable.1).bind
    exact .last _ (reads_string readable.2)
  | create request =>
    have read := reads_create readable
    rw [SingleRequest.getOpNum]
    cases kind : request.notExists with
    | false | true => rwa [kind] at read
  | check request =>
    have read := reads_check readable
    rw [SingleRequest.getOpNum]
    cases kind : request.notExists with
    | false | true => rwa [kind] at read
  | remove request =>
    apply (reads_string readable).bind
    exact .last _ (reads_int32 request.version)
  | «exists» path hasWatch | get path hasWatch =>
    apply (reads_string readable).bind
    exact .last _ (reads_bool hasWatch)
  | set request =>
    simp only [SingleRequest.writeImpl, append_assoc]
    apply (reads_string readable.1).bind
    apply (reads_string readable.2).bind
    exact .last _ (reads_int32 request.version)
  | list kind path hasWatch =>
    cases kind with
    | simple | full =>
      rw [SingleRequest.writeImpl, ← append_nil (writeBool hasWatch)]
      exact reads_list hasWatch readable (.pure _)
    | filtered listRequestType =>
      simp only [SingleRequest.writeImpl, append_assoc]
      exact reads_list hasWatch readable ((reads_uint8 listRequestType).map _)
  | setACL request =>
    simp only [SingleRequest.writeImpl, append_assoc]
    apply (reads_string readable.1).bind
    apply (reads_acls readable.2).bind
    exact .last _ (reads_int32 request.version)
  | newSession request =>
    simp only [SingleRequest.writeImpl, append_assoc]
    apply (reads_int64 _).bind
    apply (reads_int32 _).bind
    exact .last _ (reads_int32 request.serverId)
  | updateSession request =>
    simp only [SingleRequest.writeImpl, append_assoc]
    apply (reads_int64 _).bind
    apply (reads_int64 _).bind
    exact .last _ (reads_int32 request.serverId)

variable {type : OperationType}

theorem request_of_type (registered : multiOperationType opNum = some type) :
    request opNum = Request.multi type <$> multiAll := by
  rw [request, registered]
  rfl

theorem request_of_single (registered : multiOperationType opNum = none) :
    request opNum = Request.single <$> single opNum := by
  rw [request, registered]

variable {requests : List Request}

theorem reads_multiAll (round : (multiRound multiAll).Reads bytes requests) :
    multiAll.Reads bytes requests := by
  intro left
  have unfolded := run_multi_round (bytes ++ left)
  exact unfolded.trans (round left)

theorem reads_multi_nil : multiAll.Reads (Request.writeRequests []) [] := by
  apply reads_multiAll
  rw [Request.writeRequests, Request.multiHeader, append_assoc]
  apply (reads_opNum (by decide)).bind
  apply (reads_bool true).bind
  rw [← append_nil (writeInt32 _)]
  apply (reads_int32 (-1)).bind
  exact .pure []

theorem writeRequests_ne_nil (requests : List Request) : Request.writeRequests requests ≠ [] := by
  intro empty
  have lengths := congrArg length empty
  cases requests <;>
    simp [writeRequests, multiHeader, writeInt32] at lengths

theorem reads_multi_cons {request : Request} (specified : request.getOpNum ≠ .unspecified)
    (first : (ZooReader.request request.getOpNum).Reads request.writeImpl request)
    (rest : multiAll.Reads (writeRequests requests) requests) :
    multiAll.Reads (Request.writeRequests (request :: requests)) (request :: requests) := by
  apply reads_multiAll
  simp only [Request.writeRequests, Request.multiHeader, append_assoc]
  apply (reads_opNum specified).bind
  apply (reads_bool false).bind
  apply (reads_int32 (-1)).bind
  have follows := writeRequests_ne_nil requests
  cases registered : multiOperationType request.getOpNum with
  | some type =>
    rw [request_of_type registered] at first
    exact first.bind (reads_multiRest rest follows request)
  | none =>
    rw [request_of_single registered] at first
    exact first.bind (reads_multiRest rest follows request)

theorem multiOperationType_single (request : SingleRequest) :
    multiOperationType request.getOpNum = none := by
  cases request with
  | create request | check request =>
    rw [SingleRequest.getOpNum]
    cases request.notExists <;> rfl
  | list kind => cases kind <;> rfl
  | _ => rfl

theorem multiOperationType_multi (typed : type ≠ .unspecified) (requests : List Request) :
    multiOperationType (Request.multi type requests).getOpNum = some type := by
  cases type with
  | unspecified => exact absurd rfl typed
  | read | write => rfl

theorem getOpNum_specified (request : Request) : request.getOpNum ≠ .unspecified := by
  cases request with
  | multi type => cases type <;> exact OpNum.noConfusion
  | single request =>
    cases request with
    | create request | check request =>
      rw [Request.getOpNum, SingleRequest.getOpNum]
      cases request.notExists <;> decide
    | list kind => cases kind <;> exact OpNum.noConfusion
    | _ => exact OpNum.noConfusion

mutual

theorem reads_request : ∀ {request : Request}, request.Readable → request.Registered →
    (ZooReader.request request.getOpNum).Reads request.writeImpl request
  | .single request, .single short, _ => by
    rw [Request.getOpNum, Request.writeImpl, request_of_single (multiOperationType_single request)]
    exact (reads_single short).map _
  | .multi type requests, .multi short, .multi typed registered => by
    rw [Request.writeImpl, request_of_type (multiOperationType_multi typed requests)]
    exact (reads_requests short registered).map _

theorem reads_requests : ∀ {requests : List Request}, (∀ request ∈ requests, request.Readable) →
    (∀ request ∈ requests, request.Registered) →
    multiAll.Reads (writeRequests requests) requests
  | [], _, _ => reads_multi_nil
  | request :: requests, short, registered => by
    apply reads_multi_cons (getOpNum_specified request)
    · exact reads_request (short request mem_cons_self)
        (registered request mem_cons_self)
    · exact reads_requests (fun other isMember => short other (mem_cons_of_mem _ isMember))
        (fun other isMember => registered other (mem_cons_of_mem _ isMember))

end

theorem reads_int64Binary (value : Int64) :
    int64Binary.Reads (littleEndian 8 value.toUInt64.toNat) value := by
  have taken := Reader.reads_takeStrict (ReadError.cannotReadAllData · 8)
    (littleEndian 8 value.toUInt64.toNat)
  rw [length_littleEndian] at taken
  have mapped := taken.map (Int64.ofNat ∘ ofLittleEndian)
  rwa [Function.comp, ofLittleEndian_littleEndian value.toUInt64.toNat_lt, ofNat_toUInt64] at mapped

end ZooReader

/--
A log entry that fits into a buffer gives back the request that was put into it, and nothing of
the entry is left over. `create_time` is the one field that is not written.
-/
theorem deserializeKeeperRequest_serializeKeeperRequest (request : RequestForSession)
    (registered : request.request.Registered) (readable : request.request.Readable)
    (fits : request.logBytes.length ≤ nuraftBufferSize) :
    (serializeKeeperRequest request).map deserializeKeeperRequest.run =
      some (.ok ({ request with createTime := 0 }, [])) := by
  have reads : deserializeKeeperRequest.Reads request.logBytes
    { request with createTime := 0 } := by
    simp only [RequestForSession.logBytes, write, writeString, append_assoc]
    apply (reads_int64Binary _).bind
    apply (reads_int32 _).bind
    apply (reads_int32 _).bind
    apply (reads_opNum (getOpNum_specified _)).bind
    apply (ZooReader.reads_request readable registered).bind
    exact .last _ (reads_int64 request.processTime)
  have whole := reads []
  rw [append_nil] at whole
  rw [serializeKeeperRequest, getBuffer, if_pos fits, Option.map_some, whole]

def nestedEntry : RequestForSession where
  sessionId := -3
  xid := 7
  request := .multi .write
    [.single (.create
      { path := ascii "/a", data := [0, 255], isEphemeral := true, isSequential := true,
        acls := ACL.worldAnyone }),
      .multi .read [.single (.get (ascii "/a") true), .multi .write []],
      .single .close]
  processTime := 1000

theorem nestedEntry_registered : nestedEntry.request.Registered := by
  apply Registered.multi (by decide)
  simp only [forall_mem_cons, not_mem_nil, IsEmpty.forall_iff, implies_true, and_true]
  refine ⟨.single _, .multi (by decide) ?_, .single _⟩
  simp only [forall_mem_cons, not_mem_nil, IsEmpty.forall_iff, implies_true, and_true]
  exact ⟨.single _, .multi (by decide) (by simp)⟩

theorem nestedEntry_readable : nestedEntry.request.Readable := by
  apply Readable.multi
  simp only [forall_mem_cons, not_mem_nil, IsEmpty.forall_iff, implies_true, and_true]
  refine ⟨.single ⟨by decide, by decide, by decide, ?_⟩, .multi ?_, .single trivial⟩
  · simp only [ACL.worldAnyone, forall_mem_singleton]
    exact ⟨by decide, by decide⟩
  · simp only [forall_mem_cons, not_mem_nil, IsEmpty.forall_iff, implies_true, and_true]
    exact ⟨.single (show (ascii "/a").length ≤ maxStringOrArraySize by decide), .multi (by simp)⟩

theorem nestedEntry_read_back :
    nestedEntry.request.Registered ∧ nestedEntry.request.Readable ∧
      (serializeKeeperRequest nestedEntry).map deserializeKeeperRequest.run =
        some (.ok (nestedEntry, [])) :=
  ⟨nestedEntry_registered, nestedEntry_readable,
    deserializeKeeperRequest_serializeKeeperRequest nestedEntry nestedEntry_registered
      nestedEntry_readable (by decide +kernel)⟩

/-- A Create whose strings are as long as the reader allows does not fit into a buffer. -/
theorem longCreate_not_serialized :
    ∃ entry : RequestForSession, entry.request.Registered ∧ entry.request.Readable ∧
      serializeKeeperRequest entry = none := by
  have exists_long : ∃ text : Bytes, text.length = maxStringOrArraySize :=
    ⟨replicate _ 0, length_replicate⟩
  rcases exists_long with ⟨text, long⟩
  let acl : ACL := { permissions := 31, scheme := text, id := text }
  refine ⟨{ sessionId := 1, xid := 1
            request := .single (.create { path := text, data := text, acls := [acl] })
            processTime := 0 }, .single _, .single ⟨long.le, long.le, ?_, ?_⟩, if_neg ?_⟩
  · exact (by decide : 1 ≤ maxStringOrArraySize)
  · simp only [forall_mem_singleton]
    exact ⟨long.le, long.le⟩
  · simp only [acl, RequestForSession.logBytes, write, Request.writeImpl, SingleRequest.writeImpl,
      writeVector, ACL.toBytes, writeString, length_append, flatMap_singleton, long,
      length_littleEndian, nuraftBufferSize]
    simp only [maxStringOrArraySize]
    omega

end RaftKeeper
