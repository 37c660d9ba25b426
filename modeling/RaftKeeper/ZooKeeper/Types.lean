import Mathlib.Data.Finset.Card
import RaftKeeper.Common.Path

/-!
# Requests and responses

The types of `IKeeper.h`, `ZooKeeperConstants.h` and `ZooKeeperCommon.h`. The decoder accepts every
registered operation inside a Multi, a Multi included. `xid` stands outside the request body because
no sub-request carries one. The names a List returns come in the iteration order of a hash set,
which the model leaves out by keeping them as a set.
-/

namespace RaftKeeper

/-- An entry of an access control list. -/
structure ACL where
  permissions : Int32
  scheme : Bytes
  id : Bytes
deriving DecidableEq

/-- An access control list. -/
abbrev ACLs := List ACL

namespace ACL

def read : Int32 := 1
def write : Int32 := 2
def create : Int32 := 4
def delete : Int32 := 8
def admin : Int32 := 16
def all : Int32 := 0x1F

/-- The list that the reserved ACL number 0 stands for. -/
def worldAnyone : ACLs := [{ permissions := all, scheme := ascii "world", id := ascii "anyone" }]

end ACL

/-- An identity of a session. -/
structure AuthID where
  scheme : Bytes
  id : Bytes
deriving DecidableEq

abbrev AuthIDs := List AuthID

/-- The stat of a node. -/
structure Stat where
  czxid : Int64 := 0
  mzxid : Int64 := 0
  ctime : Int64 := 0
  mtime : Int64 := 0
  version : Int32 := 0
  cversion : Int32 := 0
  aversion : Int32 := 0
  ephemeralOwner : Int64 := 0
  dataLength : Int32 := 0
  numChildren : Int32 := 0
  pzxid : Int64 := 0
deriving DecidableEq

/-- The values of `Coordination::Error` that the store and the request processor answer with. -/
inductive Error
  | zok
  | zruntimeinconsistency
  | zconnectionloss
  | zoperationtimeout
  | zbadarguments
  | znonode
  | znoauth
  | zbadversion
  | znochildrenforephemerals
  | znodeexists
  | znotempty
  | zsessionexpired
  | zinvalidacl
  | zauthfailed
deriving DecidableEq

/-- The operations of the protocol. -/
inductive OpNum
  | unspecified
  | close
  | error
  | create
  | remove
  | exists
  | get
  | set
  | getACL
  | setACL
  | simpleList
  | sync
  | heartbeat
  | list
  | check
  | multi
  | multiRead
  | auth
  | setWatches
  | newSession
  | oldNewSession
  | filteredList
  | checkNotExists
  | createIfNotExists
  | updateSession
deriving DecidableEq

/-- The event types a triggered watch reports. -/
inductive Event
  | created
  | deleted
  | changed
  | child
deriving DecidableEq

/-- Whether a Multi reads or writes. -/
inductive OperationType
  | unspecified
  | read
  | write
deriving DecidableEq

/-- `ZooKeeperCreateRequest`; `notExists` makes it a CreateIfNotExists. -/
structure CreateRequest where
  path : Bytes
  data : Bytes := []
  isEphemeral : Bool := false
  isSequential : Bool := false
  acls : ACLs := []
  notExists : Bool := false
deriving DecidableEq

/-- The body of a Remove; version -1 fits every node. -/
structure RemoveRequest where
  path : Bytes
  version : Int32 := -1
deriving DecidableEq

/-- The body of a Set. -/
structure SetRequest where
  path : Bytes
  data : Bytes := []
  version : Int32 := -1
deriving DecidableEq

/-- `ZooKeeperCheckRequest`; `notExists` makes it a CheckNotExists. -/
structure CheckRequest where
  path : Bytes
  version : Int32 := -1
  notExists : Bool := false
deriving DecidableEq

/-- The body of a SetACL. -/
structure SetACLRequest where
  path : Bytes
  acls : ACLs
  version : Int32 := -1
deriving DecidableEq

/-- The three requests that list children; they differ in what they return. -/
inductive ListKind
  | simple
  | full
  | filtered (listRequestType : UInt8)
deriving DecidableEq

/-- The watches that a client had before it was reconnected. -/
structure SetWatchesRequest where
  relativeZxid : Int64
  dataWatches : List Bytes
  existWatches : List Bytes
  listWatches : List Bytes
deriving DecidableEq

/-- The body of a NewSession, which only servers send. -/
structure NewSessionRequest where
  internalId : Int64
  sessionTimeoutMs : Int32
  serverId : Int32
deriving DecidableEq

/-- The body of an UpdateSession, which is to come from servers only. -/
structure UpdateSessionRequest where
  sessionId : Int64
  sessionTimeoutMs : Int64
  serverId : Int32
deriving DecidableEq

/-- Every request other than a Multi. -/
inductive SingleRequest
  | heartbeat
  | setWatches (request : SetWatchesRequest)
  | sync (path : Bytes)
  | auth (type : Int32) (scheme data : Bytes)
  | close
  | create (request : CreateRequest)
  | remove (request : RemoveRequest)
  | exists (path : Bytes) (hasWatch : Bool)
  | get (path : Bytes) (hasWatch : Bool)
  | set (request : SetRequest)
  | list (kind : ListKind) (path : Bytes) (hasWatch : Bool)
  | check (request : CheckRequest)
  | setACL (request : SetACLRequest)
  | getACL (path : Bytes)
  | newSession (request : NewSessionRequest)
  | updateSession (request : UpdateSessionRequest)
deriving DecidableEq

/-- A decoded request without its `xid`. -/
inductive Request
  | single (request : SingleRequest)
  | multi (operationType : OperationType) (requests : List Request)

/-- The fields of a response that depend on its class; `ρ` stands for the responses inside
a Multi. -/
inductive Payload (ρ : Type)
  | heartbeat
  | setWatches
  | sync (path : Bytes)
  | watch (type : Event) (path : Bytes)
  | auth
  | close
  | create (pathCreated : Bytes)
  | remove
  | exists (stat : Stat)
  | get (data : Bytes) (stat : Stat)
  | set (stat : Stat)
  | list (names : Finset Bytes) (stat : Stat)
  | simpleList (names : Finset Bytes)
  | check
  | checkNotExists
  | setACL (stat : Stat)
  | getACL (acl : ACLs) (stat : Stat)
  | error
  | multiWrite (responses : List ρ)
  | multiRead (responses : List ρ)
  | newSession (internalId sessionId : Int64) (serverId : Int32) (success : Bool)
  | updateSession (sessionId : Int64) (serverId : Int32) (success : Bool)

/-- `ZooKeeperResponse` without the header fields that `processRequest` fills in. -/
structure Response where
  error : Error := .zok
  payload : Payload Response

namespace SingleRequest

def getOpNum : SingleRequest → OpNum
  | heartbeat => .heartbeat
  | setWatches _ => .setWatches
  | sync _ => .sync
  | auth .. => .auth
  | close => .close
  | create request => if request.notExists then .createIfNotExists else .create
  | remove _ => .remove
  | .exists .. => .exists
  | get .. => .get
  | set _ => .set
  | list .simple .. => .simpleList
  | list .full .. => .list
  | list (.filtered _) .. => .filteredList
  | check request => if request.notExists then .checkNotExists else .check
  | setACL _ => .setACL
  | getACL _ => .getACL
  | newSession _ => .newSession
  | updateSession _ => .updateSession

def getPath : SingleRequest → Bytes
  | sync path => path
  | create request => request.path
  | remove request => request.path
  | .exists path _ => path
  | get path _ => path
  | set request => request.path
  | list _ path _ => path
  | check request => request.path
  | setACL request => request.path
  | getACL path => path
  | heartbeat | setWatches _ | auth .. | close | newSession _ | updateSession _ => []

def hasWatch : SingleRequest → Bool
  | .exists _ watch => watch
  | get _ watch => watch
  | list _ _ watch => watch
  | _ => false

def isReadRequest : SingleRequest → Bool
  | heartbeat | setWatches _ | .exists .. | get .. | list .. | getACL _ => true
  | sync _ | auth .. | close | create _ | remove _ | set _ | check _ | setACL _ | newSession _
  | updateSession _ => false

def makeResponse : SingleRequest → Response
  | heartbeat => { payload := .heartbeat }
  | setWatches _ => { payload := .setWatches }
  | sync _ => { payload := .sync [] }
  | auth .. => { payload := .auth }
  | close => { payload := .close }
  | create _ => { payload := .create [] }
  | remove _ => { payload := .remove }
  | .exists .. => { payload := .exists {} }
  | get .. => { payload := .get [] {} }
  | set _ => { payload := .set {} }
  | list .simple .. => { payload := .simpleList ∅ }
  | list .full .. | list (.filtered _) .. => { payload := .list ∅ {} }
  | check request => { payload := if request.notExists then .checkNotExists else .check }
  | setACL _ => { payload := .setACL {} }
  | getACL _ => { payload := .getACL [] {} }
  | newSession request => { payload := .newSession request.internalId 0 request.serverId false }
  | updateSession request => { payload := .updateSession request.sessionId request.serverId false }

end SingleRequest

namespace Request

def getOpNum : Request → OpNum
  | single request => request.getOpNum
  | multi .read _ => .multiRead
  | multi .unspecified _ | multi .write _ => .multi

/-- `ZooKeeperRequest::isReadRequest`; a Multi is a read by its own op code alone. -/
def isReadRequest : Request → Bool
  | single request => request.isReadRequest
  | multi operationType requests => (multi operationType requests).getOpNum = .multiRead

def getPath : Request → Bytes
  | single request => request.getPath
  | multi .. => []

def hasWatch : Request → Bool
  | single request => request.hasWatch
  | multi .. => false

mutual

def makeResponse : Request → Response
  | single request => request.makeResponse
  | multi .read requests => { payload := .multiRead (makeResponses requests) }
  | multi .unspecified requests | multi .write requests =>
    { payload := .multiWrite (makeResponses requests) }

def makeResponses : List Request → List Response
  | [] => []
  | request :: rest => makeResponse request :: makeResponses rest

end

end Request

/-- `RequestForSession`; `request` carries the request body and `xid` its header field. -/
structure RequestForSession where
  sessionId : Int64
  xid : Int32
  request : Request
  createTime : Int64 := 0
  processTime : Int64 := 0

/-- `ResponseForSession`, with the header fields of `ZooKeeperResponse`. -/
structure ResponseForSession where
  sessionId : Int64
  xid : Int32
  zxid : Int64
  requestCreatedTimeMs : Int64 := 0
  response : Response

def watchXid : Int32 := -1

end RaftKeeper
