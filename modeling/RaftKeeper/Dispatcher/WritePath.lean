import RaftKeeper.Lib.Pipeline
import RaftKeeper.Lib.Run
import RaftKeeper.ZooKeeper.Types

/-!
# The way of a write to the log

A handler pushes the requests of its session to the queue of `KeeperDispatcher`. On the leader they
go to `RequestAccumulator`, which appends them to the Raft log in batches; on a follower to
`RequestForwarder`, over a connection to the leader and to the queue of the leader's dispatcher. The
queues are split by session id over the runners; between its pop and its push a thread holds one
request, which is a queue of its own here.

The leader is fixed, no push times out and no connection breaks. What `requestThread` pushes to
`RequestProcessor` is left out.
-/

namespace RaftKeeper

/-- A request in the queues; `forwardedFrom` is `server_id` and `client_id`, if set. -/
structure QueuedRequest extends RequestForSession where
  forwardedFrom : Option (ℕ × ℕ) := none

/-- What `ForwardRequestFactory::convertFromRequest` makes of a request. -/
inductive ForwardRequest
  | newSession (xid : Int32) (request : NewSessionRequest)
  | updateSession (xid : Int32) (request : UpdateSessionRequest)
  | user (sessionId : Int64) (xid : Int32) (request : Request)

def convertFromRequest (request : RequestForSession) : ForwardRequest :=
  match request.request with
  | .single (.newSession body) => .newSession request.xid body
  | .single (.updateSession body) => .updateSession request.xid body
  | body => .user request.sessionId request.xid body

/-- What the leader makes of a forwarded request. -/
def ForwardRequest.requestForSession : ForwardRequest → RequestForSession
  | newSession xid request =>
    { sessionId := request.internalId, xid, request := .single (.newSession request) }
  | updateSession xid request =>
    { sessionId := request.sessionId, xid, request := .single (.updateSession request) }
  | user sessionId xid request => { sessionId, xid, request }

def QueuedRequest.received (request : QueuedRequest) : QueuedRequest where
  toRequestForSession := (convertFromRequest request.toRequestForSession).requestForSession

/-- A session request is pushed with the id in its body, as `receiveHandshake` does. -/
def RequestForSession.Consistent (request : RequestForSession) : Prop :=
  match request.request with
  | .single (.newSession body) => body.internalId = request.sessionId
  | .single (.updateSession body) => body.sessionId = request.sessionId
  | _ => True

instance (request : RequestForSession) : Decidable request.Consistent := by
  unfold RequestForSession.Consistent
  split <;> infer_instance

theorem QueuedRequest.received_spec {request : QueuedRequest} (consistent : request.Consistent) :
    request.received.sessionId = request.sessionId ∧ request.received.xid = request.xid ∧
      request.received.request = request.request ∧ request.received.forwardedFrom = none := by
  unfold RequestForSession.Consistent at consistent
  unfold received convertFromRequest
  split at consistent <;> simp_all [ForwardRequest.requestForSession]

/-- The queues between a connection and the Raft log. -/
inductive Place
  /-- `KeeperDispatcher::requests_queue`. -/
  | requests (server runner : ℕ)
  /-- The request that `KeeperDispatcher::requestThread` has popped. -/
  | dispatching (server runner : ℕ)
  /-- `RequestForwarder::requests_queue`. -/
  | forwarder (server runner : ℕ)
  /-- The request that `RequestForwarder::runSend` has popped. -/
  | sending (server runner : ℕ)
  /-- On the way from this runner to the leader. -/
  | connection (server runner : ℕ)
  /-- Read by the leader's `ForwardConnectionHandler`. -/
  | received (server runner : ℕ)
  /-- The leader's `RequestAccumulator::requests_queue`. -/
  | accumulator
  /-- `to_append_batch` of `RequestAccumulator::run`. -/
  | batch
deriving DecidableEq

/-- The servers of a cluster with a fixed leader. -/
structure Cluster where
  servers : Finset ℕ
  leader : ℕ
  leader_mem : leader ∈ servers
  /-- The number of runners of each server. -/
  parallel : ℕ → ℕ
  positive : ∀ server, 0 < parallel server
  maxBatchSize : ℕ

namespace Cluster

/-- `request.session_id % queues.size()`, of unsigned numbers. -/
def shard (cluster : Cluster) (server : ℕ) (session : Int64) : ℕ :=
  session.toUInt64.toNat % cluster.parallel server

/-- The `max_fill` of the queues; a thread holds one request. -/
def capacity (cluster : Cluster) : Place → Option ℕ
  | .requests server _ | .forwarder server _ => some (max 1 (20000 / cluster.parallel server))
  | .dispatching .. | .sending .. | .received .. => some 1
  | .accumulator => some 20000
  | .connection .. | .batch => none

def hasRoom (cluster : Cluster) (queues : Place → List QueuedRequest) (place : Place) : Bool :=
  (cluster.capacity place).all fun most => (queues place).length < most

end Cluster

/-- All queues of a cluster, the batches that the leader has appended and what was pushed. -/
structure WritePath where
  queues : Place → List QueuedRequest := fun _ => []
  batches : List (List QueuedRequest) := []
  pushed : List (ℕ × RequestForSession) := []

/-- A push to a dispatcher or a step of one of the threads. -/
inductive PathCall
  | push (server : ℕ) (request : RequestForSession)
  | popRequest (server runner : ℕ)
  /-- The rest of the round of `requestThread`. -/
  | dispatch (server runner : ℕ)
  | popForward (server runner : ℕ)
  | send (server runner : ℕ)
  | receive (server runner : ℕ)
  | pushForwardRequest (server runner : ℕ) (createTime : Int64)
  /-- `RequestAccumulator::run` pops a request. -/
  | accumulate (processTime : Int64)
  /-- `RequestAccumulator::run` has found nothing to pop. -/
  | appendBatch

namespace WritePath

variable {cluster : Cluster} {path after : WritePath}

def advance (cluster : Cluster) (path : WritePath) (source : Place)
    (target : QueuedRequest → Place) (change : QueuedRequest → QueuedRequest) : Option WritePath :=
  match path.queues source with
  | [] => none
  | request :: rest =>
    if cluster.hasRoom path.queues (target request) then
      some { path with
        queues := moveHead path.queues source (target request) rest (change request) }
    else none

def pushRequestBatch (path : WritePath) : WritePath :=
  { path with
    queues := Function.update path.queues .batch []
    batches := path.batches ++ [path.queues .batch] }

def dispatch (cluster : Cluster) (path : WritePath) (server runner : ℕ) : Option WritePath :=
  match path.queues (.dispatching server runner) with
  | [] => none
  | request :: rest =>
    if request.request.isReadRequest then
      some { path with
        queues := Function.update path.queues (.dispatching server runner) rest }
    else if server = cluster.leader then
      path.advance cluster (.dispatching server runner) (fun _ => .accumulator) id
    else
      path.advance cluster (.dispatching server runner)
        (fun request => .forwarder server (cluster.shard server request.sessionId)) id

def accumulate (cluster : Cluster) (path : WritePath) (processTime : Int64) : Option WritePath :=
  (path.advance cluster .accumulator (fun _ => .batch)
    (fun request => { request with processTime })).map fun taken =>
      if cluster.maxBatchSize ≤ (taken.queues .batch).length then taken.pushRequestBatch else taken

/-- `KeeperDispatcher::pushRequest`, `pushSessionRequest` and the push of the session cleaner. -/
def push (cluster : Cluster) (path : WritePath) (server : ℕ) (request : RequestForSession) :
    Option WritePath :=
  let place := Place.requests server (cluster.shard server request.sessionId)
  if cluster.hasRoom path.queues place then
    some { path with
      queues := Function.update path.queues place
        (path.queues place ++ [{ toRequestForSession := request }])
      pushed := path.pushed ++ [(server, request)] }
  else none

def next (cluster : Cluster) (path : WritePath) : PathCall → Option WritePath
  | .push server request => path.push cluster server request
  | .popRequest server runner =>
    path.advance cluster (.requests server runner) (fun _ => .dispatching server runner) id
  | .dispatch server runner => path.dispatch cluster server runner
  | .popForward server runner =>
    path.advance cluster (.forwarder server runner) (fun _ => .sending server runner) id
  | .send server runner =>
    path.advance cluster (.sending server runner) (fun _ => .connection server runner)
      QueuedRequest.received
  | .receive server runner =>
    path.advance cluster (.connection server runner) (fun _ => .received server runner) id
  | .pushForwardRequest server runner createTime =>
    path.advance cluster (.received server runner)
      (fun request => .requests cluster.leader (cluster.shard cluster.leader request.sessionId))
      (fun request => { request with createTime, forwardedFrom := some (server, runner) })
  | .accumulate processTime => path.accumulate cluster processTime
  | .appendBatch =>
    if path.queues .batch = [] ∨ path.queues .accumulator ≠ [] then none
    else some path.pushRequestBatch

/-- The moves from the head of one queue to the end of another. -/
inductive Conveys (cluster : Cluster) : Place → QueuedRequest → Place → QueuedRequest → Prop
  | popRequest (server runner : ℕ) (request : QueuedRequest) :
      Conveys cluster (.requests server runner) request (.dispatching server runner) request
  | toAccumulator (runner : ℕ) (request : QueuedRequest) :
      Conveys cluster (.dispatching cluster.leader runner) request .accumulator request
  | toForwarder {server : ℕ} (runner : ℕ) (request : QueuedRequest)
      (isFollower : server ≠ cluster.leader) :
      Conveys cluster (.dispatching server runner) request
        (.forwarder server (cluster.shard server request.sessionId)) request
  | popForward (server runner : ℕ) (request : QueuedRequest) :
      Conveys cluster (.forwarder server runner) request (.sending server runner) request
  | send (server runner : ℕ) (request : QueuedRequest) :
      Conveys cluster (.sending server runner) request (.connection server runner) request.received
  | receive (server runner : ℕ) (request : QueuedRequest) :
      Conveys cluster (.connection server runner) request (.received server runner) request
  | pushForwardRequest (server runner : ℕ) (request : QueuedRequest) (createTime : Int64) :
      Conveys cluster (.received server runner) request
        (.requests cluster.leader (cluster.shard cluster.leader request.sessionId))
        { request with createTime, forwardedFrom := some (server, runner) }
  | accumulate (request : QueuedRequest) (processTime : Int64) :
      Conveys cluster .accumulator request .batch { request with processTime }

/-- One thread moves, drops or appends the head of a queue. -/
inductive Step (cluster : Cluster) (path : WritePath) : WritePath → Prop
  | move {source target : Place} {request moved : QueuedRequest} {rest : List QueuedRequest}
      (isHead : path.queues source = request :: rest)
      (conveys : Conveys cluster source request target moved) :
      Step cluster path { path with queues := moveHead path.queues source target rest moved }
  | drop {server runner : ℕ} {request : QueuedRequest} {rest : List QueuedRequest}
      (isHead : path.queues (.dispatching server runner) = request :: rest)
      (isRead : request.request.isReadRequest = true) :
      Step cluster path
        { path with queues := Function.update path.queues (.dispatching server runner) rest }
  | append (nonempty : path.queues .batch ≠ []) : Step cluster path path.pushRequestBatch

theorem move_of_advance {source : Place} {target : QueuedRequest → Place}
    {change : QueuedRequest → QueuedRequest}
    (conveys : ∀ request, (path.queues source).head? = some request →
      Conveys cluster source request (target request) (change request))
    (moves : path.advance cluster source target change = some after) : path.Step cluster after := by
  rw [advance] at moves
  split at moves
  · cases moves
  next request rest isHead =>
    split at moves
    · cases moves
      exact .move isHead (conveys request (by rw [isHead]; rfl))
    · cases moves

theorem steps_of_next {call : PathCall} (isThread : ∀ server request, call ≠ .push server request)
    (moves : path.next cluster call = some after) :
    path.Step cluster after ∨ ∃ between, path.Step cluster between ∧
      between.Step cluster after := by
  cases call with
  | push server request => exact absurd rfl (isThread server request)
  | popRequest server runner => exact .inl (move_of_advance (fun _ _ => .popRequest ..) moves)
  | dispatch server runner =>
    simp only [next, dispatch] at moves
    split at moves
    · cases moves
    next request rest isHead =>
      split at moves
      next isRead =>
        cases moves
        exact .inl (.drop isHead isRead)
      · split at moves
        next isLeader =>
          subst isLeader
          exact .inl (move_of_advance (fun _ _ => .toAccumulator ..) moves)
        next isFollower =>
          exact .inl (move_of_advance (fun _ _ => .toForwarder _ _ isFollower) moves)
  | popForward server runner => exact .inl (move_of_advance (fun _ _ => .popForward ..) moves)
  | send server runner => exact .inl (move_of_advance (fun _ _ => .send ..) moves)
  | receive server runner => exact .inl (move_of_advance (fun _ _ => .receive ..) moves)
  | pushForwardRequest server runner createTime =>
    exact .inl (move_of_advance (fun _ _ => .pushForwardRequest ..) moves)
  | accumulate processTime =>
    rcases Option.map_eq_some_iff.mp moves with ⟨taken, takes, rfl⟩
    have step : path.Step cluster taken := move_of_advance (fun _ _ => .accumulate ..) takes
    split
    · refine .inr ⟨taken, step, .append ?_⟩
      rw [advance] at takes
      split at takes
      · cases takes
      · split at takes
        · cases takes
          simp [moveHead]
        · cases takes
    · exact .inl step
  | appendBatch =>
    simp only [next] at moves
    split at moves
    · cases moves
    next ready =>
      cases moves
      exact .inl (.append fun isEmpty => ready (.inl isEmpty))

end WritePath

end RaftKeeper
