import RaftKeeper.StateMachine.CommittedLog
import RaftKeeper.Store.Sessions

/-!
# When an Auth takes effect

`KeeperDispatcher::requestThread` sends an Auth only to Raft, so the processor does not know of it,
and a read that is sent behind an Auth may be authorised before the Auth is applied. If a session
sends no read between an Auth and its application and Raft commits in the order of sending, every
request is authorised with the identities of the Auths before it.
-/

namespace RaftKeeper

open List Option ProcessorHistory Replicated

/-- The identity that `StoreRequestAuth::process` adds for its session. -/
def StoreState.grants (platform : Platform) (state : StoreState) : Request → Option AuthID
  | .single (.auth _ scheme data) =>
    if scheme ≠ ascii "digest" ∨ data.count 58 ≠ 1 then none
    else if platform.generateDigest data = state.superDigest then
      some { scheme := ascii "super", id := [] }
    else some { scheme := scheme, id := platform.generateDigest data }
  | _ => none

/-- One check of a request against the identities of its session. -/
structure Authorisation where
  request : RequestForSession
  /-- Its place among the requests that were sent here; for a read the place of any read that its
  session has sent. -/
  places : List ℕ
  /-- The identities that it is checked against, or nothing if the session is not alive. -/
  auths : Option AuthIDs
  grants : Option AuthID

/-- A server with what its sessions have sent and what their requests were checked against. -/
structure AuthPath where
  keeper : Keeper
  sent : List RequestForSession := []
  /-- The places of the committed requests that are applied; nothing for requests of elsewhere. -/
  applied : List (Option ℕ) := []
  /-- The places of the committed requests that are not applied. -/
  waiting : List (Option ℕ) := []
  authorised : List Authorisation := []

/-- The steps of a server; requests of its sessions are committed in any order. -/
inductive AuthCall
  | send (request : RequestForSession)
  | commit (place : ℕ) (createTime processTime : Int64)
  | commitOther (request : RequestForSession)
  | onError (error : ErrorRequest)
  | run (surroundings : Surroundings)

namespace AuthPath

/-- `requestThread` does not push session requests and Auths to the processor. -/
def isPushed (request : RequestForSession) : Bool :=
  !(isSessionRequest request.request.getOpNum || request.request.getOpNum = .auth)

def readPlaces (sent : List RequestForSession) (session : Int64) : List ℕ :=
  (range sent.length).filter fun place =>
    sent[place]?.any fun request => request.sessionId = session && request.request.isReadRequest

def authorise (platform : Platform) (store : KeeperStore) (places : List ℕ)
    (request : RequestForSession) : Authorisation where
  request := request
  places := places
  auths :=
    if store.replicated.contains request.sessionId then some (store.authsOf request.sessionId)
    else none
  grants :=
    if store.replicated.contains request.sessionId then store.grants platform request.request
    else none

/-- The processor's thread: the committed requests that it applies move from `waiting` to
`applied`. -/
def run (platform : Platform) (parallel : ℕ) (machine : AuthPath) (surroundings : Surroundings)
    (env : Environment) : Option AuthPath :=
  (machine.keeper.history.processor.step parallel surroundings).bind fun (processor, handed) =>
    (machine.keeper.next platform parallel (.run surroundings, env)).map fun keeper =>
      let moved := machine.waiting.take (machine.waiting.length - processor.unapplied.length)
      { machine with
        keeper := keeper
        applied := machine.applied ++ moved
        waiting := machine.waiting.drop moved.length
        authorised := machine.authorised ++ match handed with
          | .process request =>
            let places :=
              if request.request.isReadRequest then readPlaces machine.sent request.sessionId
              else moved.reduceOption
            [authorise platform machine.keeper.store places request]
          | _ => [] }

/-- A request of the log; reads are not in it. -/
def commit (platform : Platform) (parallel : ℕ) (machine : AuthPath) (request : RequestForSession)
    (place : Option ℕ) (env : Environment) : Option AuthPath :=
  if request.request.isReadRequest then none
  else
    (machine.keeper.next platform parallel (.commit request, env)).map fun keeper =>
      { machine with keeper := keeper, waiting := machine.waiting ++ [place] }

def next (platform : Platform) (parallel : ℕ) (machine : AuthPath) :
    AuthCall × Environment → Option AuthPath
  | (.send request, env) =>
    let sent := { machine with sent := machine.sent ++ [request] }
    if isPushed request then
      (machine.keeper.next platform parallel (.push request, env)).map fun keeper =>
        { sent with keeper := keeper }
    else some sent
  | (.commit place createTime processTime, env) =>
    (machine.sent[place]?).bind fun request =>
      machine.commit platform parallel { request with createTime, processTime } (some place) env
  | (.commitOther request, env) => machine.commit platform parallel request none env
  | (.onError error, env) =>
    (machine.keeper.next platform parallel (.onError error, env)).map fun keeper =>
      { machine with keeper := keeper }
  | (.run surroundings, env) => machine.run platform parallel surroundings env

/-- A read is sent when no Auth of its session is committed and not applied. Raft commits what a
session has sent in order, and an Auth before the session sends a read. -/
def InOrder (machine : AuthPath) : AuthCall × Environment → Prop
  | (.send request, _) =>
    request.request.isReadRequest →
      ∀ place ∈ machine.waiting, ∀ number ∈ place, ∀ earlier ∈ machine.sent[number]?,
        earlier.sessionId = request.sessionId → earlier.request.getOpNum ≠ .auth
  | (.commit place _ _, _) =>
    ∀ request ∈ machine.sent[place]?,
      (∀ other ∈ machine.applied ++ machine.waiting, ∀ number ∈ other,
        ∀ earlier ∈ machine.sent[number]?, earlier.sessionId = request.sessionId → number < place) ∧
      (request.request.getOpNum = .auth → ∀ later ∈ machine.sent.drop (place + 1),
        later.sessionId = request.sessionId → later.request.isReadRequest = false)
  | _ => True

instance (machine : AuthPath) : DecidablePred machine.InOrder
  | (.send _, _) | (.commit _ _ _, _) => by
    unfold InOrder
    infer_instance
  | (.commitOther _, _) | (.onError _, _) | (.run _, _) => .isTrue trivial

variable {platform : Platform} {parallel : ℕ} {machine after : AuthPath} {env : Environment}

open RequestProcessor

abbrev unapplied (machine : AuthPath) : List RequestForSession :=
  machine.keeper.history.processor.unapplied

/-- What a step of the processor does to requests and identities. -/
inductive RunStep (platform : Platform) (machine : AuthPath) : AuthPath → Prop
  | quiet {keeper : Keeper} (isSame : keeper.history.processor.unapplied = machine.unapplied)
      (sameStore : keeper.store = machine.keeper.store) :
      RunStep platform machine { machine with keeper := keeper }
  | read {keeper : Keeper} {request : RequestForSession} {reply : Option Reply}
      (isSame : keeper.history.processor.unapplied = machine.unapplied)
      (isRead : request.request.isReadRequest = true)
      (applies : machine.keeper.store.replicated.apply platform request.entry =
        some (keeper.store.replicated, reply)) :
      RunStep platform machine
        { machine with
          keeper := keeper
          authorised := machine.authorised ++ [authorise platform machine.keeper.store
            (readPlaces machine.sent request.sessionId) request] }
  | committed {keeper : Keeper} {request first : RequestForSession} {reply : Option Reply}
      {place : Option ℕ} {rest : List (Option ℕ)}
      (isFirst : machine.unapplied = first :: keeper.history.processor.unapplied)
      (isLogged : request.logged = first.logged) (isPlace : machine.waiting = place :: rest)
      (applies : machine.keeper.store.replicated.apply platform request.entry =
        some (keeper.store.replicated, reply)) :
      RunStep platform machine
        { machine with
          keeper := keeper
          applied := machine.applied ++ [place]
          waiting := rest
          authorised := machine.authorised ++
            [authorise platform machine.keeper.store place.toList request] }

variable {request : RequestForSession} {store : KeeperStore}

theorem apply_of_serve {keeper : Keeper} {answers : List ResponseForSession}
    (serves : (Handed.process request).serve platform env keeper.store = some (store, answers)) :
    ∃ reply, keeper.store.replicated.apply platform request.entry =
      some (store.replicated, reply) := by
  have moves := Keeper.next_of_serve serves
  have refines := @KeeperStore.processRequest_refines platform keeper.store
    { request := request, env := env } ⟨rfl, rfl⟩
  rcases refines store moves with ⟨reply, applies, _⟩
  exact ⟨reply, applies⟩

theorem runStep_of_run {surroundings : Surroundings}
    (sameLength : machine.waiting.length = machine.unapplied.length)
    (writes : ∀ request ∈ machine.unapplied, request.request.isReadRequest = false)
    (runs : machine.run platform parallel surroundings env = some after) :
    RunStep platform machine after ∧ after.keeper.history.processor.PopSound := by
  rcases bind_eq_some_iff.mp runs with ⟨⟨processor, handed⟩, steps, moves⟩
  rcases map_eq_some_iff.mp moves with ⟨keeper, serves, rfl⟩
  rw [Keeper.next, steps, bind_some] at serves
  rcases map_eq_some_iff.mp serves with ⟨⟨store, answers⟩, isServed, rfl⟩
  have transition := @Transition.of_step parallel surroundings _ _ _ steps
  refine ⟨?_, by rw [hand_processor]; exact popSound_transition transition⟩
  cases committedStep_transition transition with
  | none same onlyReads =>
    have noMove : machine.waiting.length - processor.unapplied.length = 0 := by
      rw [same, sameLength, Nat.sub_self]
    simp only [noMove, take_zero, append_nil, length_nil, drop_zero]
    cases handed with
    | nothing | respond response =>
      cases isServed
      simp only [append_nil]
      apply RunStep.quiet
      · rw [hand_processor, same]
      · rfl
    | process request =>
      have isRead := onlyReads rfl
      rcases apply_of_serve isServed with ⟨reply, applies⟩
      simp only [if_pos isRead]
      refine @RunStep.read platform machine _ request reply ?_ isRead applies
      rw [hand_processor, same]
  | @first request taken isFirst sameLogged =>
    have isFirst : machine.unapplied = request :: processor.unapplied := isFirst
    have isWrite : taken.request.isReadRequest = false := by
      have noRead := writes request (isFirst ▸ mem_cons_self)
      have sameRequest : taken.logged.request = request.logged.request := by rw [sameLogged]
      exact (congrArg Request.isReadRequest sameRequest).trans noRead
    have isProcessed : applyRequest surroundings taken = .process taken := by
      rw [applyRequest, if_neg (by simp [isWrite])]
    rw [isProcessed] at isServed ⊢
    rcases apply_of_serve isServed with ⟨reply, applies⟩
    have isLength : machine.waiting.length = processor.unapplied.length + 1 := by
      rw [sameLength, isFirst, length_cons]
    have oneMove : machine.waiting.length - processor.unapplied.length = 1 := by
      rw [isLength, Nat.add_sub_cancel_left]
    cases isWaiting : machine.waiting with
    | nil => simp [isWaiting] at isLength
    | cons place rest =>
      rw [isWaiting] at oneMove
      simp only [oneMove, take_succ_cons, take_zero, length_singleton,
        drop_succ_cons, drop_zero, isWrite, Bool.false_eq_true, if_false]
      have isPlaces : [place].reduceOption = place.toList := by
        cases place <;> rfl
      rw [isPlaces]
      refine @RunStep.committed platform machine _ taken request reply place rest ?_ sameLogged
        isWaiting applies
      rw [hand_processor, isFirst]

def IsSent (sent : List RequestForSession) (place : Option ℕ) (request : RequestForSession) :
    Prop :=
  request.request.isReadRequest = false ∧
    ∀ number ∈ place, ∃ original, sent[number]? = some original ∧
      original.sessionId = request.sessionId ∧ original.request = request.request

def Before (sent : List RequestForSession) (first second : Option ℕ) : Prop :=
  ∀ earlier ∈ first, ∀ later ∈ second, ∀ original ∈ sent[earlier]?, ∀ other ∈ sent[later]?,
    original.sessionId = other.sessionId → earlier < later

/-- A session's committed requests are applied in their order. -/
structure Placed (machine : AuthPath) : Prop where
  popSound : machine.keeper.history.processor.PopSound
  waits : Forall₂ (IsSent machine.sent) machine.waiting machine.unapplied
  known : ∀ place ∈ machine.applied ++ machine.waiting, ∀ number ∈ place,
    number < machine.sent.length
  ordered : (machine.applied ++ machine.waiting).Pairwise (Before machine.sent)
  /-- No read is behind an Auth that is not applied. -/
  noRead : ∀ place ∈ machine.waiting, ∀ number ∈ place, ∀ auth ∈ machine.sent[number]?,
    auth.request.getOpNum = .auth → ∀ later ∈ machine.sent.drop (number + 1),
      later.sessionId = auth.sessionId → later.request.isReadRequest = false
  recorded : ∀ record ∈ machine.authorised, ∀ place ∈ record.places,
    ∃ original, machine.sent[place]? = some original ∧
      original.sessionId = record.request.sessionId ∧
      (original.request.isReadRequest = true ∨ some place ∈ machine.applied)

theorem getElem?_sent {sent : List RequestForSession} {number : ℕ} {original : RequestForSession}
    (isSent : sent[number]? = some original) (request : RequestForSession) :
    (sent ++ [request])[number]? = some original := by
  rcases List.getElem?_eq_some_iff.mp isSent with ⟨isWithin, _⟩
  rw [getElem?_append_left isWithin, isSent]

namespace Placed

variable {keeper : Keeper}

theorem send (placed : machine.Placed) (isInOrder : machine.InOrder (.send request, env))
    (popSound : keeper.history.processor.PopSound)
    (isSame : keeper.history.processor.unapplied = machine.unapplied) :
    Placed { machine with keeper := keeper, sent := machine.sent ++ [request] } where
  popSound := popSound
  waits := by
    dsimp only [unapplied]
    rw [isSame]
    apply placed.waits.imp
    rintro place waiting ⟨isWrite, isSent⟩
    refine ⟨isWrite, ?_⟩
    intro number isNumber
    rcases isSent number isNumber with ⟨original, isOriginal, same⟩
    exact ⟨original, getElem?_sent isOriginal request, same⟩
  known := by
    intro place isPlace number isNumber
    have isKnown := placed.known place isPlace number isNumber
    simp only [length_append, length_singleton]
    omega
  ordered := by
    apply placed.ordered.imp_of_mem
    intro first second isFirst isSecond isBefore earlier isEarlier later isLater
    rw [getElem?_append_left (placed.known first isFirst earlier isEarlier),
      getElem?_append_left (placed.known second isSecond later isLater)]
    exact isBefore earlier isEarlier later isLater
  noRead := by
    intro place isPlace number isNumber auth isAuth opNum later isLater sameSession
    have isKnown := placed.known place (mem_append_right _ isPlace) number isNumber
    rw [getElem?_append_left isKnown] at isAuth
    rw [drop_append_of_le_length isKnown] at isLater
    rcases mem_append.mp isLater with isLater | isNew
    · exact placed.noRead place isPlace number isNumber auth isAuth opNum later isLater sameSession
    · cases mem_singleton.mp isNew
      by_contra isRead
      rw [Bool.not_eq_false] at isRead
      exact isInOrder isRead place isPlace number isNumber auth isAuth sameSession.symm opNum
  recorded := by
    intro record isRecord place isPlace
    rcases placed.recorded record isRecord place isPlace with ⟨original, isOriginal, facts⟩
    exact ⟨original, getElem?_sent isOriginal request, facts⟩

theorem commit (placed : machine.Placed) {place : Option ℕ}
    (isSent : IsSent machine.sent place request)
    (isLast : ∀ other ∈ machine.applied ++ machine.waiting, Before machine.sent other place)
    (noRead : ∀ number ∈ place, ∀ auth ∈ machine.sent[number]?, auth.request.getOpNum = .auth →
      ∀ later ∈ machine.sent.drop (number + 1), later.sessionId = auth.sessionId →
        later.request.isReadRequest = false) (popSound : keeper.history.processor.PopSound)
    (isQueue : keeper.history.processor.unapplied = machine.unapplied ++ [request]) :
    Placed { machine with keeper := keeper, waiting := machine.waiting ++ [place] } where
  popSound := popSound
  waits := by
    dsimp only [unapplied]
    rw [isQueue]
    exact rel_append placed.waits (.cons isSent .nil)
  known := by
    rw [← append_assoc]
    refine forall_mem_append.mpr ⟨placed.known, forall_mem_singleton.mpr fun number isNumber => ?_⟩
    rcases isSent.2 number isNumber with ⟨original, isOriginal, _⟩
    exact (List.getElem?_eq_some_iff.mp isOriginal).1
  ordered := by
    rw [← append_assoc, pairwise_append]
    exact ⟨placed.ordered, pairwise_singleton _ _, fun other isOther =>
      forall_mem_singleton.mpr (isLast other isOther)⟩
  noRead := forall_mem_append.mpr ⟨placed.noRead, forall_mem_singleton.mpr noRead⟩
  recorded := placed.recorded

theorem writes (placed : machine.Placed) :
    ∀ request ∈ machine.unapplied, request.request.isReadRequest = false := by
  intro request isMember
  rcases mem_iff_getElem.mp isMember with ⟨index, isWithin, rfl⟩
  have isShort : index < machine.waiting.length := placed.waits.length_eq ▸ isWithin
  exact (placed.waits.get isShort isWithin).1

theorem mem_readPlaces {sent : List RequestForSession} {session : Int64} {place : ℕ}
    (isPlace : place ∈ readPlaces sent session) :
    ∃ original, sent[place]? = some original ∧ original.sessionId = session ∧
      original.request.isReadRequest = true := by
  rcases mem_filter.mp isPlace with ⟨_, isRead⟩
  cases isOriginal : sent[place]? with
  | none => simp [isOriginal] at isRead
  | some original =>
    rw [isOriginal, any_some, Bool.and_eq_true, decide_eq_true_iff] at isRead
    exact ⟨original, rfl, isRead⟩

theorem run (placed : machine.Placed) (step : RunStep platform machine after)
    (popSound : after.keeper.history.processor.PopSound) : after.Placed := by
  cases step with
  | quiet isSame sameStore =>
    exact { placed with
      popSound
      waits := by dsimp only [unapplied]; rw [isSame]; exact placed.waits }
  | read isSame isRead applies =>
    refine { placed with
      popSound
      waits := by dsimp only [unapplied]; rw [isSame]; exact placed.waits
      recorded := forall_mem_append.mpr ⟨placed.recorded, forall_mem_singleton.mpr ?_⟩ }
    intro place isPlace
    rcases mem_readPlaces isPlace with ⟨original, isOriginal, isSession, isRead⟩
    exact ⟨original, isOriginal, isSession, .inl isRead⟩
  | @committed keeper request first reply place rest isFirst isLogged isWaiting applies =>
    have waits := placed.waits
    rw [isWaiting, isFirst] at waits
    rcases forall₂_cons.mp waits with ⟨isSent, waits⟩
    have sameList : machine.applied ++ [place] ++ rest = machine.applied ++ machine.waiting := by
      rw [append_assoc, isWaiting]
      rfl
    refine ⟨popSound, waits, sameList ▸ placed.known, sameList ▸ placed.ordered,
      fun other isOther => placed.noRead other (isWaiting ▸ mem_cons_of_mem _ isOther),
      forall_mem_append.mpr ⟨fun record isRecord number isNumber => ?_,
        forall_mem_singleton.mpr fun number isNumber => ?_⟩⟩
    · rcases placed.recorded record isRecord number isNumber with
        ⟨original, isOriginal, isSession, isRead | isApplied⟩
      · exact ⟨original, isOriginal, isSession, .inl isRead⟩
      · exact ⟨original, isOriginal, isSession, .inr (mem_append_left _ isApplied)⟩
    · have isPlace : place = some number := mem_toList.mp isNumber
      rcases isSent.2 number isPlace with ⟨original, isOriginal, isSession, _⟩
      have sameSession : request.logged.sessionId = first.logged.sessionId := by rw [isLogged]
      refine ⟨original, isOriginal, isSession.trans sameSession.symm, .inr ?_⟩
      rw [← isPlace]
      exact mem_append_right _ (mem_singleton_self place)

end Placed

variable {first : Int64} {count : ℕ}

def Identified (first : Int64) (count : ℕ) (replica : Replicated) (records : List Authorisation) :
    Prop :=
  replica.IdsBelow first count ∧
    ∀ record ∈ records, ∀ identity ∈ record.grants,
      ordinal first record.request.sessionId < count ∧
        (identity ∈ replica.authsOf record.request.sessionId ∨
          replica.contains record.request.sessionId = false)

variable {reply : Option Reply}

theorem mem_authsOf_of_grants {replica after : Replicated} {entry : LogEntry} {identity : AuthID}
    (applies : replica.apply platform entry = some (after, reply))
    (isAlive : replica.contains entry.sessionId = true)
    (isGranted : replica.grants platform entry.request = some identity) :
    identity ∈ after.authsOf entry.sessionId := by
  rw [StoreState.grants.eq_def] at isGranted
  split at isGranted
  next type scheme data isRequest =>
    rcases ite_none_left_eq_some.mp isGranted with ⟨isDigest, isIdentity⟩
    simp only [Replicated.apply, isRequest, isAlive, if_true, Replicated.applyRequest,
      Replicated.respond, StoreRequest.make, StoreRequest.checkAuth, StoreState.checkAuth,
      StoreRequest.process, StoreState.process, StoreState.auth, if_neg isDigest] at applies
    cases applies
    rw [StoreState.authsOf, Finmap.lookup_insert, getD_some]
    split at isIdentity
    next isSuper =>
      cases isIdentity
      rw [if_pos isSuper]
      exact mem_append_right _ (mem_singleton_self _)
    next notSuper =>
      cases isIdentity
      rw [if_neg notSuper]
      split
      next isMember => exact isMember
      next => exact mem_append_right _ (mem_singleton_self _)
  next => cases isGranted

variable {records : List Authorisation}

theorem Identified.step {after : Replicated} (places : List ℕ)
    (identified : Identified first count store.replicated records) (isBounded : count < 2 ^ 64)
    (applies : store.replicated.apply platform request.entry = some (after, reply)) :
    Identified first (count + opens request.entry) after
      (records ++ [authorise platform store places request]) := by
  rcases identified with ⟨ids, isKept⟩
  have sessionStep := sessionStep_apply applies
  refine ⟨sessionStep.idsBelow ids isBounded, ?_⟩
  intro record isRecord identity isGranted
  rcases mem_append.mp isRecord with isRecord | isNew
  · rcases isKept record isRecord identity isGranted with ⟨isOld, isMember | isEnded⟩
    · exact ⟨Nat.lt_add_right _ isOld, sessionStep.auth_kept isMember⟩
    · exact ⟨Nat.lt_add_right _ isOld, .inr (sessionStep.ended ids isBounded isOld isEnded)⟩
  · cases mem_singleton.mp isNew
    rcases ite_none_right_eq_some.mp isGranted with ⟨isAlive, isGranted⟩
    have isOld := ids.alive request.sessionId isAlive
    exact ⟨Nat.lt_add_right _ isOld, .inl (mem_authsOf_of_grants applies isAlive isGranted)⟩

/-- Of two calls for one session, the first a successful Auth that was sent before the request of
the second, the second is authorised with the identity of the first. -/
def Authorised (records : List Authorisation) : Prop :=
  ∀ auth ∈ records, ∀ later ∈ records, later.request.sessionId = auth.request.sessionId →
    ∀ identity ∈ auth.grants, ∀ place ∈ auth.places, ∀ laterPlace ∈ later.places,
      place < laterPlace → ∀ auths ∈ later.auths, identity ∈ auths

instance (records : List Authorisation) : Decidable (Authorised records) := by
  unfold Authorised
  infer_instance

theorem Authorised.append {record : Authorisation} (authorised : Authorised records)
    (isLater : ∀ auth ∈ records, record.request.sessionId = auth.request.sessionId →
      ∀ identity ∈ auth.grants, ∀ auths ∈ record.auths, identity ∈ auths)
    (isLast : record.grants.isSome → ∀ later ∈ records ++ [record],
      later.request.sessionId = record.request.sessionId →
        ∀ place ∈ record.places, ∀ laterPlace ∈ later.places, ¬place < laterPlace) :
    Authorised (records ++ [record]) := by
  intro auth isAuth later isRecord sameSession identity isGranted place isPlace laterPlace
    isLaterPlace isBefore auths isAuths
  rcases mem_append.mp isAuth with isAuth | isNew
  · rcases mem_append.mp isRecord with isRecord | isNew
    · exact authorised auth isAuth later isRecord sameSession identity isGranted place isPlace
        laterPlace isLaterPlace isBefore auths isAuths
    · cases mem_singleton.mp isNew
      exact isLater auth isAuth sameSession identity isGranted auths isAuths
  · cases mem_singleton.mp isNew
    have isSome : record.grants.isSome := isSome_of_mem isGranted
    exact absurd isBefore (isLast isSome later isRecord sameSession place isPlace laterPlace
      isLaterPlace)

variable {places : List ℕ}

theorem Identified.isLater (identified : Identified first count store.replicated records) :
    ∀ auth ∈ records, request.sessionId = auth.request.sessionId → ∀ identity ∈ auth.grants,
      ∀ auths ∈ (authorise platform store places request).auths, identity ∈ auths := by
  intro auth isAuth sameSession identity isGranted auths isAuths
  rcases ite_none_right_eq_some.mp isAuths with ⟨isAlive, isAuths⟩
  cases isAuths
  rcases identified.2 auth isAuth identity isGranted with ⟨_, isMember | isEnded⟩
  · exact sameSession ▸ isMember
  · rw [← sameSession, isAlive] at isEnded
    cases isEnded

theorem isAuth_of_grants (isGranted : (authorise platform store places request).grants.isSome) :
    request.request.getOpNum = .auth ∧ request.request.isReadRequest = false := by
  rcases isSome_iff_exists.mp isGranted with ⟨identity, isIdentity⟩
  rcases ite_none_right_eq_some.mp isIdentity with ⟨_, isIdentity⟩
  rw [StoreState.grants.eq_def] at isIdentity
  split at isIdentity
  next isRequest =>
    rw [isRequest]
    exact ⟨rfl, rfl⟩
  next => cases isIdentity

theorem not_isNewSession {request : Request} (isRead : request.isReadRequest = true) :
    ¬request.isNewSession := by
  intro isNew
  rw [Request.isNewSession.eq_def] at isNew
  split at isNew
  · cases isRead
  · cases isNew

theorem Placed.isLast (placed : machine.Placed) {place : Option ℕ} {rest : List (Option ℕ)}
    {queued : RequestForSession} {others : List RequestForSession}
    (isWaiting : machine.waiting = place :: rest) (isFirst : machine.unapplied = queued :: others)
    (isLogged : request.logged = queued.logged) (isAuth : request.request.getOpNum = .auth) :
    ∀ later ∈ machine.authorised, later.request.sessionId = request.sessionId →
      ∀ number ∈ place, ∀ laterPlace ∈ later.places, ¬number < laterPlace := by
  intro later isLater sameSession number isNumber laterPlace isLaterPlace isBefore
  have waits := placed.waits
  rw [isWaiting, isFirst] at waits
  rcases (forall₂_cons.mp waits).1.2 number isNumber with
    ⟨original, isOriginal, isSession, isRequest⟩
  have isOwn : request.logged.sessionId = queued.logged.sessionId ∧
      request.logged.request = queued.logged.request := by
    rw [isLogged]
    exact ⟨rfl, rfl⟩
  have isQueued : original.sessionId = request.sessionId := isSession.trans isOwn.1.symm
  have isSame : original.request = request.request := isRequest.trans isOwn.2.symm
  have isMember : place ∈ machine.waiting := isWaiting ▸ mem_cons_self
  rcases placed.recorded later isLater laterPlace isLaterPlace with
    ⟨other, isOther, otherSession, isRead | isApplied⟩
  · have isBehind : other ∈ machine.sent.drop (number + 1) := by
      have isPlace : (machine.sent.drop (number + 1))[laterPlace - (number + 1)]? = some other := by
        rw [getElem?_drop, Nat.add_sub_cancel' isBefore, isOther]
      exact mem_of_getElem? isPlace
    have noRead := placed.noRead place isMember number isNumber original isOriginal
      (isSame ▸ isAuth) other isBehind
      ((otherSession.trans sameSession).trans isQueued.symm)
    rw [isRead] at noRead
    cases noRead
  · have isOrdered := (pairwise_append.mp placed.ordered).2.2 _ isApplied _ isMember
    have isEarlier := isOrdered laterPlace rfl number isNumber other isOther original isOriginal
      ((otherSession.trans sameSession).trans isQueued.symm)
    exact Nat.lt_asymm isBefore isEarlier

/-- The identities of a session are those of its Auths that are applied. -/
structure Sound (first : Int64) (count : ℕ) (machine : AuthPath) : Prop where
  placed : machine.Placed
  identities : count + machine.applied.length < 2 ^ 64 → Authorised machine.authorised ∧
    ∃ opened ≤ count + machine.applied.length,
      Identified first opened machine.keeper.store.replicated machine.authorised

namespace Sound

theorem run (sound : machine.Sound first count) (step : RunStep platform machine after)
    (popSound : after.keeper.history.processor.PopSound) : after.Sound first count := by
  refine ⟨sound.placed.run step popSound, fun isBounded => ?_⟩
  have isLess : machine.applied.length ≤ after.applied.length := by
    cases step with
    | quiet | read => exact le_rfl
    | committed => exact length_append ▸ Nat.le_add_right _ _
  rcases sound.identities (by omega) with ⟨authorised, opened, isOpened, identified⟩
  have isBelow : opened < 2 ^ 64 := by omega
  cases step with
  | quiet isSame sameStore =>
    refine ⟨authorised, opened, isOpened, ?_⟩
    dsimp only
    rw [sameStore]
    exact identified
  | @read keeper request reply isSame isRead applies =>
    have opensNone : opens request.entry = 0 := if_neg (not_isNewSession isRead)
    refine ⟨?_, opened, isOpened, ?_⟩
    · apply authorised.append identified.isLater
      intro isGranted
      have isWrite := (isAuth_of_grants isGranted).2
      rw [isRead] at isWrite
      cases isWrite
    · have isStep := identified.step (readPlaces machine.sent request.sessionId) isBelow applies
      rw [opensNone, Nat.add_zero] at isStep
      exact isStep
  | @committed keeper request queued reply place rest isFirst isLogged isWaiting applies =>
    refine ⟨?_, opened + opens request.entry, ?_, identified.step _ isBelow applies⟩
    · apply authorised.append identified.isLater
      intro isGranted later isLater sameSession number isNumber laterPlace isLaterPlace
      have isAuth := (isAuth_of_grants isGranted).1
      have isPlace := mem_toList.mp isNumber
      rcases mem_append.mp isLater with isLater | isNew
      · exact sound.placed.isLast isWaiting isFirst isLogged isAuth later isLater sameSession number
          isPlace laterPlace isLaterPlace
      · cases mem_singleton.mp isNew
        have isSame := isPlace.symm.trans (mem_toList.mp isLaterPlace)
        cases some.inj isSame
        exact Nat.lt_irrefl number
    · have isAtMost : opens request.entry ≤ 1 := by
        rw [opens]
        split <;> omega
      simp only [length_append, length_singleton]
      omega

theorem commit (sound : machine.Sound first count) {place : Option ℕ}
    (commits : machine.commit platform parallel request place env = some after)
    (isSent : ∀ number ∈ place, ∃ original, machine.sent[number]? = some original ∧
      original.sessionId = request.sessionId ∧ original.request = request.request)
    (isLast : ∀ other ∈ machine.applied ++ machine.waiting, Before machine.sent other place)
    (noRead : ∀ number ∈ place, ∀ auth ∈ machine.sent[number]?, auth.request.getOpNum = .auth →
      ∀ later ∈ machine.sent.drop (number + 1), later.sessionId = auth.sessionId →
        later.request.isReadRequest = false) : after.Sound first count := by
  rcases ite_none_left_eq_some.mp commits with ⟨isWrite, commits⟩
  rw [Bool.not_eq_true] at isWrite
  rcases map_eq_some_iff.mp commits with ⟨keeper, moves, rfl⟩
  rcases Keeper.next_call (by simp) moves with ⟨history, isNext, rfl⟩
  rw [next_commit isNext]
  refine ⟨?_, sound.identities⟩
  apply sound.placed.commit ⟨isWrite, isSent⟩ isLast noRead
  · intro session found left errors _
    exact append_ne_nil_of_right_ne_nil _ (cons_ne_nil _ _)
  · exact unapplied_commit sound.placed.popSound

theorem next {call : AuthCall × Environment} (sound : machine.Sound first count)
    (isInOrder : machine.InOrder call)
    (moves : machine.next platform parallel call = some after) : after.Sound first count := by
  rcases call with ⟨call, env⟩
  cases call with
  | send request =>
    simp only [AuthPath.next] at moves
    split at moves
    · rcases map_eq_some_iff.mp moves with ⟨keeper, pushes, rfl⟩
      rcases Keeper.next_call (by simp) pushes with ⟨history, isNext, rfl⟩
      rw [next_push isNext]
      exact { sound with placed := sound.placed.send isInOrder sound.placed.popSound rfl }
    · cases moves
      exact { sound with placed := sound.placed.send isInOrder sound.placed.popSound rfl }
  | commit place createTime processTime =>
    rcases bind_eq_some_iff.mp moves with ⟨request, isRequest, commits⟩
    rcases isInOrder request isRequest with ⟨isLast, noRead⟩
    apply sound.commit commits
    · intro number isNumber
      cases isNumber
      exact ⟨request, isRequest, rfl, rfl⟩
    · intro other isOther earlier isEarlier later isLater original isOriginal sent isSent
      cases isLater
      cases isRequest.symm.trans isSent
      exact isLast other isOther earlier isEarlier original isOriginal
    · intro number isNumber auth isAuth
      cases isNumber
      cases isRequest.symm.trans isAuth
      exact noRead
  | commitOther request =>
    apply sound.commit moves
    · nofun
    · nofun
    · nofun
  | onError error =>
    rcases map_eq_some_iff.mp moves with ⟨keeper, reports, rfl⟩
    rcases Keeper.next_call (by simp) reports with ⟨history, isNext, rfl⟩
    rw [(next_onError isNext).2]
    have placed := sound.placed
    exact { sound with placed := { placed with } }
  | run surroundings =>
    rcases runStep_of_run sound.placed.waits.length_eq sound.placed.writes moves with
      ⟨step, popSound⟩
    exact sound.run step popSound

end Sound

theorem sound_start (ids : store.replicated.IdsBelow first count) :
    Sound first count { keeper := { store := store } } where
  placed :=
    { popSound := nofun
      waits := .nil
      known := nofun
      ordered := .nil
      noRead := nofun
      recorded := nofun }
  identities _ := ⟨nofun, count, le_rfl, ids, nofun⟩

/-- Where no read of a session overtakes an Auth and Raft keeps the order of what the session has
sent, a request is authorised with the identities of the Auths before it. -/
theorem auths_in_order {store : KeeperStore} (ids : store.replicated.IdsBelow first count)
    (reached : ReachableBy (next platform parallel) InOrder { keeper := { store := store } }
      machine)
    (isBounded : count + machine.applied.length < 2 ^ 64) : Authorised machine.authorised := by
  have sound : machine.Sound first count := by
    apply reached.invariant (·.Sound first count) (sound_start ids)
    intro before after call isSound isInOrder moves
    exact isSound.next isInOrder moves
  exact (sound.identities isBounded).1

def openRun : List AuthCall :=
  .commitOther
      { sessionId := 7, xid := newSessionXid, request := .single (.newSession ⟨7, 1000, 1⟩) } ::
    replicate 8 (.run (.sample true))

def sampleAuth : RequestForSession where
  sessionId := 1
  xid := authXid
  request := .single (.auth 0 (ascii "digest") (ascii "user:password"))

def sampleGet : RequestForSession where
  sessionId := 1
  xid := 1
  request := .single (.get (ascii "/") false)

def sampleIdentity : AuthID where
  scheme := ascii "digest"
  id := Platform.sample.generateDigest (ascii "user:password")

def sampleRun : List AuthCall :=
  openRun ++ [.send sampleAuth, .commit 0 0 0] ++ replicate 10 (.run (.sample true)) ++
    [.send sampleGet] ++ replicate 10 (.run (.sample true))

theorem idsBelow_sample : KeeperStore.sample.replicated.IdsBelow 1 0 := by
  refine ⟨rfl, ?_⟩
  intro session isAlive
  cases isAlive

theorem auths_in_order_sampleRun :
    ∃ machine, ReachableBy (next .sample 1) InOrder { keeper := { store := .sample } } machine ∧
      machine.authorised.map (fun record => (record.places, record.grants, record.auths)) =
        [([], none, none), ([0], some sampleIdentity, some []),
          ([1], none, some [sampleIdentity])] ∧
      Authorised machine.authorised := by
  refine exists_reached_of (fun machine =>
      machine.authorised.map (fun record => (record.places, record.grants, record.auths)) =
        [([], none, none), ([0], some sampleIdentity, some []),
          ([1], none, some [sampleIdentity])] ∧
      machine.applied.length = 2) (sampleRun.map (·, .sorted)) (by decide +kernel) ?_
  rintro machine reached ⟨isRecorded, isLength⟩
  refine ⟨isRecorded, auths_in_order idsBelow_sample reached ?_⟩
  rw [isLength]
  decide

/-- Session 1 reads behind its Auth, which is committed later. -/
def overtakingRun : List AuthCall :=
  openRun ++ [.send sampleAuth, .send sampleGet] ++ replicate 10 (.run (.sample true)) ++
    [.commit 0 0 0] ++ replicate 10 (.run (.sample true))

/-- The read is authorised without the identity of the Auth that was sent before it. -/
theorem overtakingRun_reads_first :
    ∃ machine, ReachableBy (next .sample 1) (fun _ _ => True) { keeper := { store := .sample } }
        machine ∧
      machine.authorised.map (fun record => (record.places, record.grants, record.auths)) =
        [([], none, none), ([1], none, some []), ([0], some sampleIdentity, some [])] ∧
      ¬Authorised machine.authorised := by
  exact exists_reached (overtakingRun.map (·, .sorted)) (by decide +kernel)

end AuthPath

end RaftKeeper
