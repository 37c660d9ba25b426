import RaftKeeper.Dispatcher.WritePath
import RaftKeeper.Lib.Inevitable
import RaftKeeper.ZooKeeper.Codec

/-!
# Writes reach the log in order

The requests of one session that were pushed on one server pass through the same queues, so they are
appended to the log in the order of their pushes, and each once. A session request changes its id on
the way when the id in its body is another one; then it passes through other queues.
-/

namespace RaftKeeper

open List PathCall QueuedRequest

def QueuedRequest.origin (request : QueuedRequest) (here : ℕ) : ℕ :=
  (request.forwardedFrom.map Prod.fst).getD here

namespace Cluster

variable {cluster : Cluster} {server here : ℕ} {session : Int64} {place source target : Place}
  {request moved : QueuedRequest}

def serverOf (cluster : Cluster) : Place → ℕ
  | .requests server _ | .dispatching server _ | .forwarder server _ | .sending server _
  | .connection server _ | .received server _ => server
  | .accumulator | .batch => cluster.leader

def writeOf (server : ℕ) (session : Int64) (here : ℕ) (request : QueuedRequest) :
    Option (Int32 × Request) :=
  if request.sessionId = session ∧ request.origin here = server ∧
      request.request.isReadRequest = false then
    some (request.xid, request.request)
  else none

theorem writeOf_ne_none (isWrite : writeOf server session here request ≠ none) :
    request.sessionId = session ∧ request.origin here = server := by
  by_contra isOther
  refine isWrite (if_neg ?_)
  rintro ⟨isSession, isOrigin, _⟩
  exact isOther ⟨isSession, isOrigin⟩

def leaderChain (cluster : Cluster) (session : Int64) : List Place :=
  [.batch, .accumulator, .dispatching cluster.leader (cluster.shard cluster.leader session),
    .requests cluster.leader (cluster.shard cluster.leader session)]

def followerChain (cluster : Cluster) (server : ℕ) (session : Int64) : List Place :=
  let runner := cluster.shard server session
  [.received server runner, .connection server runner, .sending server runner,
    .forwarder server runner, .dispatching server runner, .requests server runner]

def route (cluster : Cluster) (server : ℕ) (session : Int64) :
    Route Place QueuedRequest (Int32 × Request) where
  chain := cluster.leaderChain session ++
    if server = cluster.leader then [] else cluster.followerChain server session
  nodup := by
    by_cases isLeader : server = cluster.leader
    · simp [leaderChain, isLeader]
    · simp [leaderChain, followerChain, isLeader, Ne.symm isLeader]
  view place := writeOf server session (cluster.serverOf place)

/-- Where a request can be, by the id of its session. -/
def Placed (cluster : Cluster) (place : Place) (request : QueuedRequest) : Prop :=
  request.Consistent ∧
  match place with
  | .requests server runner | .dispatching server runner =>
    server ∈ cluster.servers ∧ cluster.shard server request.sessionId = runner ∧
      (server ≠ cluster.leader → request.forwardedFrom = none)
  | .forwarder server runner | .sending server runner | .connection server runner
  | .received server runner =>
    server ∈ cluster.servers ∧ cluster.shard server request.sessionId = runner ∧
      server ≠ cluster.leader ∧ request.forwardedFrom = none
  | .accumulator | .batch => True

theorem Placed.conveyed (placed : cluster.Placed source request)
    (conveys : WritePath.Conveys cluster source request target moved) :
    cluster.Placed target moved := by
  rcases placed with ⟨consistent, isHere⟩
  cases conveys with
  | popRequest | popForward | receive => exact ⟨consistent, isHere⟩
  | toAccumulator => exact ⟨consistent, trivial⟩
  | toForwarder runner _ isFollower =>
    rcases isHere with ⟨isServer, isRunner, notForwarded⟩
    exact ⟨consistent, isServer, rfl, isFollower, notForwarded isFollower⟩
  | send =>
    rcases received_spec consistent with ⟨sameSession, _, sameRequest, fresh⟩
    rcases isHere with ⟨isServer, isRunner, isFollower, _⟩
    refine ⟨?_, isServer, sameSession ▸ isRunner, isFollower, fresh⟩
    rw [RequestForSession.Consistent, sameRequest, sameSession]
    exact consistent
  | pushForwardRequest =>
    exact ⟨consistent, cluster.leader_mem, rfl, fun isFollower => absurd rfl isFollower⟩
  | accumulate => exact ⟨consistent, trivial⟩

theorem writeOf_conveyed (placed : cluster.Placed source request)
    (conveys : WritePath.Conveys cluster source request target moved) :
    writeOf server session (cluster.serverOf target) moved =
      writeOf server session (cluster.serverOf source) request := by
  rcases placed with ⟨consistent, isHere⟩
  cases conveys with
  | popRequest | popForward | receive | toAccumulator | toForwarder => rfl
  | send =>
    rcases received_spec consistent with ⟨sameSession, sameXid, sameRequest, fresh⟩
    have sameOrigin : ∀ here, request.received.origin here = request.origin here := by
      intro here
      rw [origin, origin, fresh, isHere.2.2.2]
    rw [writeOf, writeOf, sameSession, sameXid, sameRequest, sameOrigin]
    rfl
  | pushForwardRequest sender =>
    have sameOrigin : request.origin sender = sender := by
      rw [origin, isHere.2.2.2]
      rfl
    simp only [writeOf, serverOf, sameOrigin]
    rfl
  | accumulate => rfl

theorem along_followerChain (isFollower : here ≠ cluster.leader)
    (notForwarded : request.forwardedFrom = none) (isOrigin : request.origin here = server)
    {front back : List Place}
    (isChain : cluster.followerChain here request.sessionId = front ++ target :: source :: back) :
    ∃ front back,
      (cluster.route server request.sessionId).chain = front ++ target :: source :: back := by
  have isServer : here = server := by
    rw [← isOrigin, origin, notForwarded]
    rfl
  subst isServer
  refine ⟨cluster.leaderChain request.sessionId ++ front, back, ?_⟩
  dsimp only [route]
  rw [if_neg isFollower, isChain, append_assoc]

theorem along_route (placed : cluster.Placed source request)
    (conveys : WritePath.Conveys cluster source request target moved)
    (isWrite : writeOf server session (cluster.serverOf source) request ≠ none) :
    ∃ front back, (cluster.route server session).chain = front ++ target :: source :: back := by
  rcases writeOf_ne_none isWrite with ⟨rfl, isOrigin⟩
  rcases placed with ⟨consistent, isHere⟩
  cases conveys with
  | popRequest here runner =>
    rcases isHere with ⟨_, rfl, notForwarded⟩
    by_cases isLeader : here = cluster.leader
    · subst isLeader
      exact ⟨[.batch, .accumulator], _, rfl⟩
    · exact @along_followerChain _ _ here _ _ _ isLeader (notForwarded isLeader) isOrigin
        [_, _, _, _] [] rfl
  | toAccumulator runner =>
    rcases isHere with ⟨_, rfl, _⟩
    exact ⟨[.batch], _, rfl⟩
  | @toForwarder here runner _ isFollower =>
    rcases isHere with ⟨_, rfl, notForwarded⟩
    exact @along_followerChain _ _ here _ _ _ isFollower (notForwarded isFollower) isOrigin
      [_, _, _] [_] rfl
  | popForward here runner =>
    rcases isHere with ⟨_, rfl, isFollower, notForwarded⟩
    exact @along_followerChain _ _ here _ _ _ isFollower notForwarded isOrigin [_, _] [_, _] rfl
  | send here runner =>
    rcases isHere with ⟨_, rfl, isFollower, notForwarded⟩
    exact @along_followerChain _ _ here _ _ _ isFollower notForwarded isOrigin [_] [_, _, _] rfl
  | receive here runner =>
    rcases isHere with ⟨_, rfl, isFollower, notForwarded⟩
    exact @along_followerChain _ _ here _ _ _ isFollower notForwarded isOrigin [] [_, _, _, _] rfl
  | pushForwardRequest here runner =>
    rcases isHere with ⟨_, rfl, isFollower, notForwarded⟩
    have isServer : here = server := by
      rw [← isOrigin, origin, notForwarded]
      rfl
    subst isServer
    refine ⟨(cluster.leaderChain request.sessionId).take 3,
      (cluster.followerChain here request.sessionId).tail, ?_⟩
    dsimp only [route]
    rw [if_neg isFollower]
    rfl
  | accumulate => exact ⟨[], _, rfl⟩

def places (cluster : Cluster) : Finset Place :=
  {.accumulator, .batch} ∪ cluster.servers.biUnion fun server =>
    (Finset.range (cluster.parallel server)).biUnion fun runner =>
      {.requests server runner, .dispatching server runner, .forwarder server runner,
        .sending server runner, .connection server runner, .received server runner}

theorem mem_places (placed : cluster.Placed place request) : place ∈ cluster.places := by
  have below : ∀ server, cluster.shard server request.sessionId < cluster.parallel server :=
    fun server => Nat.mod_lt _ (cluster.positive server)
  rcases placed with ⟨_, isHere⟩
  cases place with
  | accumulator | batch => simp [places]
  | requests server runner | dispatching server runner | forwarder server runner
  | sending server runner | connection server runner | received server runner =>
    rcases isHere with ⟨isServer, rfl, _⟩
    simp [places, isServer, below]

def stepsFrom (cluster : Cluster) : Place → ℕ
  | .requests server _ => if server = cluster.leader then 4 else 10
  | .dispatching server _ => if server = cluster.leader then 3 else 9
  | .forwarder .. => 8
  | .sending .. => 7
  | .connection .. => 6
  | .received .. => 5
  | .accumulator => 2
  | .batch => 1

theorem stepsFrom_lt (conveys : WritePath.Conveys cluster source request target moved) :
    cluster.stepsFrom target < cluster.stepsFrom source := by
  cases conveys with
  | popRequest server runner =>
    by_cases isLeader : server = cluster.leader <;> simp [stepsFrom, isLeader]
  | toAccumulator runner => simp [stepsFrom]
  | toForwarder runner _ isFollower => simp [stepsFrom, isFollower]
  | popForward | send | receive | pushForwardRequest | accumulate => simp [stepsFrom]

end Cluster

def PathCall.IsThread (call : PathCall) : Prop :=
  ∀ server request, call ≠ .push server request

/-- A push is made on a server of the cluster, and a session request comes with its own id. -/
def PathCall.Proper (cluster : Cluster) : PathCall → Prop
  | .push server request => server ∈ cluster.servers ∧ request.Consistent
  | _ => True

instance (cluster : Cluster) (call : PathCall) : Decidable (call.Proper cluster) := by
  unfold Proper
  split <;> infer_instance

namespace WritePath

variable {cluster : Cluster} {path after : WritePath} {server : ℕ} {session : Int64}

open Cluster

def appended (cluster : Cluster) (path : WritePath) (server : ℕ) (session : Int64) :
    List (Int32 × Request) :=
  path.batches.flatten.filterMap (writeOf server session cluster.leader)

/-- The writes of a session that are on their way, the first one first. -/
def underWay (cluster : Cluster) (path : WritePath) (server : ℕ) (session : Int64) :
    List (Int32 × Request) :=
  (cluster.route server session).content path.queues

/-- The writes of a session in the order in which its connection has pushed them. -/
def pushedWrites (path : WritePath) (server : ℕ) (session : Int64) : List (Int32 × Request) :=
  path.pushed.filterMap fun (here, request) =>
    writeOf server session here { toRequestForSession := request }

/-- Requests stand in queues of their own runners, and the writes of a session that are in the
batches or under way are those that were pushed. -/
structure Sound (cluster : Cluster) (path : WritePath) : Prop where
  placed : ∀ place, ∀ request ∈ path.queues place, cluster.Placed place request
  conserved : ∀ server session, path.appended cluster server session ++
    path.underWay cluster server session = path.pushedWrites server session

theorem Sound.step (sound : path.Sound cluster) (step : path.Step cluster after) :
    after.Sound cluster := by
  cases step with
  | @move source target request moved rest isHead conveys =>
    have isPlaced : cluster.Placed source request :=
      sound.placed source request (isHead ▸ mem_cons_self)
    refine ⟨held_move sound.placed isHead (isPlaced.conveyed conveys), ?_⟩
    intro server session
    have same : (cluster.route server session).content
        (moveHead path.queues source target rest moved) =
          (cluster.route server session).content path.queues :=
      Route.content_move isHead (writeOf_conveyed isPlaced conveys)
        (along_route isPlaced conveys)
    rw [underWay, same]
    exact sound.conserved server session
  | @drop here runner request rest isHead isRead =>
    refine ⟨held_drop sound.placed isHead, ?_⟩
    intro server session
    have foreign : (cluster.route server session).view (.dispatching here runner) request = none :=
      if_neg (by simp [isRead])
    rw [underWay, Route.content_drop_other isHead foreign]
    exact sound.conserved server session
  | append nonempty =>
    refine ⟨held_update sound.placed (by simp), ?_⟩
    intro server session
    have conserved := sound.conserved server session
    rw [underWay, Route.content_take rfl, ← append_assoc] at conserved
    have appends : path.pushRequestBatch.appended cluster server session =
        path.appended cluster server session ++
          (path.queues .batch).filterMap ((cluster.route server session).view .batch) := by
      simp [appended, pushRequestBatch, Cluster.route, Cluster.serverOf, filterMap_append]
    rw [appends]
    exact conserved

theorem Sound.push {here : ℕ} {request : RequestForSession} (sound : path.Sound cluster)
    (isServer : here ∈ cluster.servers) (consistent : request.Consistent)
    (moves : path.push cluster here request = some after) : after.Sound cluster := by
  rw [WritePath.push] at moves
  rcases Option.ite_none_right_eq_some.mp moves with ⟨_, ⟨⟩⟩
  constructor
  · refine held_push sound.placed ?_
    exact ⟨consistent, isServer, rfl, fun _ => rfl⟩
  · intro server session
    have conserved := sound.conserved server session
    rw [pushedWrites, filterMap_append, ← pushedWrites, ← conserved, append_assoc]
    congr 1
    rw [underWay]
    cases isWrite : writeOf server session here { toRequestForSession := request } with
    | none =>
      rw [Route.content_push_other isWrite]
      simp [underWay, isWrite]
    | some write =>
      have isOwn : writeOf server session here { toRequestForSession := request } ≠ none := by
        simp [isWrite]
      have isSession : request.sessionId = session := (writeOf_ne_none isOwn).1
      have isOrigin : here = server := (writeOf_ne_none isOwn).2
      subst isSession isOrigin
      have isChain : ∃ front, (cluster.route here request.sessionId).chain =
          front ++ [.requests here (cluster.shard here request.sessionId)] := by
        by_cases isLeader : here = cluster.leader
        · refine ⟨(cluster.leaderChain request.sessionId).take 3, ?_⟩
          dsimp only [Cluster.route]
          rw [if_pos isLeader, isLeader]
          rfl
        · refine ⟨cluster.leaderChain request.sessionId ++
            (cluster.followerChain here request.sessionId).take 5, ?_⟩
          dsimp only [Cluster.route]
          rw [if_neg isLeader]
          rfl
      rcases isChain with ⟨front, isChain⟩
      rw [Route.content_push isChain]
      simp [underWay, Cluster.route, Cluster.serverOf, isWrite]

theorem Sound.next {call : PathCall} (sound : path.Sound cluster)
    (proper : call.Proper cluster) (moves : path.next cluster call = some after) :
    after.Sound cluster := by
  by_cases isPush : ∃ here request, call = .push here request
  · rcases isPush with ⟨here, request, rfl⟩
    exact sound.push proper.1 proper.2 moves
  · have isThread : ∀ here request, call ≠ .push here request :=
      fun here request isCall => isPush ⟨here, request, isCall⟩
    rcases steps_of_next isThread moves with step | ⟨between, first, second⟩
    · exact sound.step step
    · exact (sound.step first).step second

/-- No thread has anything to do. -/
def Quiet (cluster : Cluster) (path : WritePath) : Prop :=
  ∀ call : PathCall, call.IsThread → path.next cluster call = none

theorem hasRoom_of_empty {place : Place} (isEmpty : path.queues place = []) :
    cluster.hasRoom path.queues place = true := by
  rw [hasRoom, isEmpty]
  cases place <;> simp [capacity]

theorem empty_of_advance {source : Place} {target : QueuedRequest → Place}
    {change : QueuedRequest → QueuedRequest}
    (stuck : path.advance cluster source target change = none)
    (room : ∀ request, cluster.hasRoom path.queues (target request) = true) :
    path.queues source = [] := by
  rw [advance] at stuck
  split at stuck
  next isEmpty => exact isEmpty
  next request rest isHead => simp [room request] at stuck

theorem Quiet.empty (quiet : path.Quiet cluster) (place : Place) : path.queues place = [] := by
  -- from the end of the path to its beginning: each place is empty because the next one is
  have accumulator : path.queues .accumulator = [] := by
    have stuck := quiet (.accumulate 0) (by simp [IsThread])
    exact empty_of_advance (Option.map_eq_none_iff.mp stuck) (fun _ => rfl)
  have batch : path.queues .batch = [] := by
    have stuck := quiet .appendBatch (by simp [IsThread])
    by_contra nonempty
    simp [next, accumulator, nonempty] at stuck
  have leaderDispatching : ∀ runner, path.queues (.dispatching cluster.leader runner) = [] := by
    intro runner
    have stuck := quiet (.dispatch cluster.leader runner) (by simp [IsThread])
    by_contra nonempty
    rcases exists_cons_of_ne_nil nonempty with ⟨request, rest, isHead⟩
    have room := @hasRoom_of_empty cluster path _ accumulator
    simp only [next, dispatch, advance, isHead, room, if_true] at stuck
    split at stuck <;> cases stuck
  have popped : ∀ server runner, path.queues (.dispatching server runner) = [] →
      path.queues (.requests server runner) = [] := by
    intro server runner isEmpty
    exact empty_of_advance (quiet (.popRequest server runner) (by simp [IsThread]))
      (fun _ => hasRoom_of_empty isEmpty)
  have leaderRequests : ∀ runner, path.queues (.requests cluster.leader runner) = [] :=
    fun runner => popped cluster.leader runner (leaderDispatching runner)
  have received : ∀ server runner, path.queues (.received server runner) = [] := by
    intro server runner
    exact empty_of_advance (quiet (.pushForwardRequest server runner 0) (by simp [IsThread]))
      (fun _ => hasRoom_of_empty (leaderRequests _))
  have connection : ∀ server runner, path.queues (.connection server runner) = [] := by
    intro server runner
    exact empty_of_advance (quiet (.receive server runner) (by simp [IsThread]))
      (fun _ => hasRoom_of_empty (received server runner))
  have sending : ∀ server runner, path.queues (.sending server runner) = [] := by
    intro server runner
    exact empty_of_advance (quiet (.send server runner) (by simp [IsThread])) (fun _ => rfl)
  have forwarder : ∀ server runner, path.queues (.forwarder server runner) = [] := by
    intro server runner
    exact empty_of_advance (quiet (.popForward server runner) (by simp [IsThread]))
      (fun _ => hasRoom_of_empty (sending server runner))
  have dispatching : ∀ server runner, path.queues (.dispatching server runner) = [] := by
    intro server runner
    by_cases isLeader : server = cluster.leader
    · exact isLeader ▸ leaderDispatching runner
    · have stuck := quiet (.dispatch server runner) (by simp [IsThread])
      by_contra nonempty
      rcases exists_cons_of_ne_nil nonempty with ⟨request, rest, isHead⟩
      have room := @hasRoom_of_empty cluster path _
        (forwarder server (cluster.shard server request.sessionId))
      simp only [next, dispatch, advance, isHead, isLeader, room, if_true, if_false] at stuck
      split at stuck <;> cases stuck
  cases place with
  | requests server runner => exact popped server runner (dispatching server runner)
  | dispatching server runner => exact dispatching server runner
  | forwarder server runner => exact forwarder server runner
  | sending server runner => exact sending server runner
  | connection server runner => exact connection server runner
  | received server runner => exact received server runner
  | accumulator => exact accumulator
  | batch => exact batch

theorem Quiet.underWay_eq_nil (quiet : path.Quiet cluster) :
    path.underWay cluster server session = [] := by
  rw [underWay, Route.content, Route.contentOf, flatMap_eq_nil_iff]
  intro place _
  rw [quiet.empty place, filterMap_nil]

theorem Sound.load_lt (sound : path.Sound cluster) (step : path.Step cluster after) :
    load cluster.places cluster.stepsFrom after.queues <
      load cluster.places cluster.stepsFrom path.queues := by
  have head : ∀ {place request rest}, path.queues place = request :: rest →
      cluster.Placed place request :=
    fun isHead => sound.placed _ _ (isHead ▸ mem_cons_self)
  cases step with
  | move isHead conveys =>
    exact load_move (mem_places (head isHead)) (mem_places ((head isHead).conveyed conveys)) isHead
      (stepsFrom_lt conveys)
  | drop isHead isRead =>
    refine load_drop (mem_places (head isHead)) isHead ?_
    simp only [stepsFrom]
    split <;> omega
  | append nonempty =>
    rcases exists_cons_of_ne_nil nonempty with ⟨request, rest, isHead⟩
    have change := @load_update _ _ _ path.queues .batch [] cluster.places cluster.stepsFrom
      (mem_places (head isHead))
    rw [isHead] at change
    simp only [stepsFrom, length_cons, length_nil] at change
    rw [pushRequestBatch]
    dsimp only
    omega

/-- The writes of a session that are in the batches and those that are under way are what was
pushed, in this order. When no thread has anything to do they are all in the batches, and whatever
steps the threads take, this is where they get. -/
theorem writes_in_order
    (reached : ReachableBy (next cluster) (fun _ call => call.Proper cluster) {} path) (server : ℕ)
    (session : Int64) :
    (path.appended cluster server session ++ path.underWay cluster server session =
        path.pushedWrites server session) ∧
      (path.Quiet cluster →
        path.appended cluster server session = path.pushedWrites server session) ∧
      Inevitable (next cluster) (fun path call => call.IsThread ∧ (path.next cluster call).isSome)
        (Quiet cluster) path := by
  have sound : path.Sound cluster := by
    refine ReachableBy.invariant (Sound cluster) ?_ ?_ reached
    · refine ⟨by simp, ?_⟩
      intro server session
      simp [appended, underWay, pushedWrites, Route.content, Route.contentOf]
    · intro before after call isSound proper moves
      exact isSound.next proper moves
  refine ⟨sound.conserved server session, ?_, ?_⟩
  · intro quiet
    have conserved := sound.conserved server session
    rw [quiet.underWay_eq_nil, append_nil] at conserved
    exact conserved
  · refine Inevitable.of_measure (fun path => load cluster.places cluster.stepsFrom path.queues)
      (Sound cluster) ?_ sound
    intro before isSound _
    refine ⟨fun _ enabled => enabled.2, ?_⟩
    intro call after enabled moves
    rcases steps_of_next enabled.1 moves with step | ⟨between, first, second⟩
    · exact .inr ⟨isSound.step step, isSound.load_lt step⟩
    · have middle := isSound.step first
      exact .inr ⟨middle.step second, (middle.load_lt second).trans (isSound.load_lt first)⟩

def sampleCluster : Cluster where
  servers := {1, 2}
  leader := 1
  leader_mem := by decide
  parallel server := if server = 1 then 2 else 3
  positive server := by split <;> decide
  maxBatchSize := 10

def forwardRun (followerRunner : ℕ) : List PathCall :=
  [.popRequest 2 followerRunner, .dispatch 2 followerRunner, .popForward 2 followerRunner,
    .send 2 followerRunner, .receive 2 followerRunner, .pushForwardRequest 2 followerRunner 0]

def sampleRun : List PathCall :=
  [.push 2 { sessionId := 4, xid := 1, request := .single (.create { path := ascii "/a" }) },
    .push 2 { sessionId := 4, xid := 2, request := .single (.create { path := ascii "/b" }) }] ++
  forwardRun 1 ++ [.popRequest 1 0, .dispatch 1 0, .accumulate 7, .appendBatch]

theorem writes_in_order_sampleRun :
    ∃ path, ReachableBy (next sampleCluster) (fun _ call => call.Proper sampleCluster) {} path ∧
      (path.appended sampleCluster 2 4).map Prod.fst = [1] ∧
      (path.pushedWrites 2 4).map Prod.fst = [1, 2] ∧
      path.appended sampleCluster 2 4 ++ path.underWay sampleCluster 2 4 =
        path.pushedWrites 2 4 := by
  exact exists_reached_of (fun path => (path.appended sampleCluster 2 4).map Prod.fst = [1] ∧
      (path.pushedWrites 2 4).map Prod.fst = [1, 2]) sampleRun (by decide +kernel)
    fun reached tested => ⟨tested.1, tested.2, (writes_in_order reached 2 4).1⟩

def newSessionFrame : Bytes :=
  [0, 0, 0, 1, 255, 255, 255, 246] ++ [0, 0, 0, 0, 0, 0, 0, 2] ++ [0, 0, 3, 232] ++ [0, 0, 0, 1]

def newSessionBody : Request :=
  .single (.newSession { internalId := 2, sessionTimeoutMs := 1000, serverId := 1 })

def overtakenRun : List PathCall :=
  [.push 2 { sessionId := 1, xid := 1, request := newSessionBody },
    .push 2 { sessionId := 1, xid := 2, request := .single (.create { path := ascii "/a" }) }] ++
  forwardRun 1 ++ forwardRun 1 ++
  [.popRequest 1 1, .dispatch 1 1, .popRequest 1 0, .dispatch 1 0, .accumulate 7, .accumulate 7,
    .appendBatch]

theorem overtakenRun_reorders : receiveRequest newSessionFrame = .ok (1, newSessionBody) ∧
    ∃ path, ReachableBy (next sampleCluster) (fun _ _ => True) {} path ∧
      (path.pushedWrites 2 1).map Prod.fst = [1, 2] ∧
      path.batches.flatten.map (fun request => request.xid) = [2, 1] := by
  exact ⟨rfl, exists_reached overtakenRun (by decide +kernel)⟩

end WritePath

end RaftKeeper
