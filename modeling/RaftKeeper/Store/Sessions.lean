import RaftKeeper.Store.Atomicity
import RaftKeeper.Store.Replicated

/-!
# Sessions, their ids and their identities

A session gets its id from a counter of the replicated state, and nothing but a Close ends it. So an
id that was in use does not come back before the counter has gone through all 64-bit integers, and
the identities of a session are there until it is closed.
-/

namespace RaftKeeper

def Request.isNewSession : Request → Bool
  | .single (.newSession _) => true
  | _ => false

def Request.isClose : Request → Bool
  | .single .close => true
  | _ => false

/-- Every session has kept its identities. -/
def StoreState.KeepsAuths (before after : StoreState) : Prop :=
  ∀ session auth, auth ∈ before.authsOf session → auth ∈ after.authsOf session

namespace StoreState

variable {before middle after : StoreState}

theorem KeepsAuths.refl (state : StoreState) : state.KeepsAuths state :=
  fun _ _ isMember => isMember

theorem KeepsAuths.trans (first : before.KeepsAuths middle) (second : middle.KeepsAuths after) :
    before.KeepsAuths after :=
  fun session auth isMember => second session auth (first session auth isMember)

theorem keepsAuths_of_sameAuths (same : before.SameAuths after.sessionAndAuth) :
    before.KeepsAuths after := by
  intro session auth isMember
  rw [← same session] at isMember
  exact isMember

theorem keepsAuths_of_eq (same : after.sessionAndAuth = before.sessionAndAuth) :
    before.KeepsAuths after :=
  keepsAuths_of_sameAuths fun session => by rw [same]; rfl

theorem keepsAuths_auth (state : StoreState) (platform : Platform) (session : Int64)
    (scheme data : Bytes) : state.KeepsAuths (state.auth platform session scheme data).1 := by
  intro other auth isMember
  rw [StoreState.auth]
  split
  · exact isMember
  · dsimp only
    rw [authsOf, Finmap.lookup_insert_ite]
    split
    next isOwn =>
      rw [isOwn] at isMember
      rw [Option.getD_some]
      split
      · exact List.mem_append_left _ isMember
      · split
        · exact isMember
        · exact List.mem_append_left _ isMember
    next => exact isMember

theorem keepsAuths_setACL (state : StoreState) (session : Int64) (request : SetACLRequest) :
    state.KeepsAuths (state.setACL session request).1 := by
  rw [setACL]
  split
  · exact .refl state
  · split
    · exact .refl state
    · split
      · exact keepsAuths_of_sameAuths (state.authsOf_touchAuth session)
      · exact keepsAuths_of_sameAuths (state.authsOf_touchAuth session)

variable {zxid session time : Int64} {platform : Platform}

theorem keepsAuths_process {request : SingleRequest} {response : Response} {undo : Undo}
    (processed : before.process platform zxid session time request =
      .returned (after, response, undo)) : before.KeepsAuths after := by
  by_cases legal : request.multiType.isSome
  · exact keepsAuths_of_sameAuths ((process_spec processed).effect legal).sameAuths.1
  cases request with
  | auth type scheme data =>
    cases processed
    exact keepsAuths_auth before platform session scheme data
  | setACL request =>
    cases processed
    exact keepsAuths_setACL before session request
  | heartbeat | setWatches | sync =>
    cases processed
    exact .refl before
  | getACL path =>
    rcases StoreState.keeping_eq_returned processed with ⟨rfl, _, _⟩
    exact .refl after
  | close | newSession | updateSession => cases processed
  | _ => simp [SingleRequest.multiType] at legal

theorem keepsAuths_runAll {undos : List Undo} (runs : Undo.runAll undos before = some after) :
    before.KeepsAuths after := by
  induction undos generalizing before with
  | nil =>
    cases runs
    exact .refl _
  | cons undo rest ih =>
    rw [Undo.runAll] at runs
    split at runs
    next undone runsFirst =>
      have isKept : before.KeepsAuths undone := by
        rcases Option.map_eq_some_iff.mp runsFirst with ⟨tree, _, rfl⟩
        exact keepsAuths_of_eq rfl
      exact isKept.trans (ih runs)
    next => cases runs

theorem keepsAuths_leaves {trace : Trace} {rolledBack : Bool}
    (leaves : StoreRequestMultiTxn.Leaves zxid session time before trace rolledBack [] after) :
    before.KeepsAuths after := by
  rcases leaves with ⟨executed, chain, ending⟩
  have isKept : before.KeepsAuths executed :=
    chain.invariant (before.KeepsAuths ·) (fun _ _ => True)
      (fun effect kept _ => kept.trans (keepsAuths_of_sameAuths effect.sameAuths.1))
      (.refl before) fun _ _ => trivial
  split at ending
  · rw [List.append_nil] at ending
    exact isKept.trans (keepsAuths_runAll ending)
  · exact ending ▸ isKept

theorem keepsAuths_storeRequest {type : OperationType} {request : Request}
    {storeRequest : StoreRequest} (made : StoreRequest.make request = .ok storeRequest)
    (ends : (storeRequest.process platform before zxid session time type).final = some after) :
    before.KeepsAuths after := by
  cases storeRequest with
  | single request =>
    rcases StoreRequest.process_single_final ends with ⟨rfl, _⟩ | ⟨response, undo, processed⟩
    · exact .refl after
    · exact keepsAuths_process processed
  | multi txn =>
    exact keepsAuths_leaves (StoreRequest.process_multi_leaves (KeeperStore.multi_legal made) ends)

end StoreState

namespace Replicated

variable {platform : Platform} {replica after : Replicated} {entry : LogEntry}

theorem keepsAuths_respond {state : StoreState}
    (ends : (replica.respond platform entry).final = some state) : replica.KeepsAuths state := by
  rcases respond_final ends with rfl | ⟨storeRequest, made, ends⟩
  · exact .refl _
  · exact StoreState.keepsAuths_storeRequest made ends

/-- A session is closed, a session is opened, or the sessions stay as they are. -/
inductive SessionStep (replica : Replicated) (entry : LogEntry) : Replicated → Prop
  | close (isClose : entry.request = .single .close) :
      SessionStep replica entry (replica.closeSession entry.sessionId)
  | opened {request : NewSessionRequest}
      (isOpening : entry.request = .single (.newSession request)) :
      SessionStep replica entry (replica.newSession request)
  | other (state : StoreState) (zxid : Int64) (kept : replica.KeepsAuths state)
      (isOther : entry.request.isNewSession = false)
      (notClose : entry.request ≠ .single .close) :
      SessionStep replica entry { replica with toStoreState := state, zxid := zxid }

theorem sessionStep_apply {reply : Option Reply}
    (applies : replica.apply platform entry = some (after, reply)) :
    SessionStep replica entry after := by
  have notNew (notOpening : ∀ request, entry.request ≠ .single (.newSession request)) :
      entry.request.isNewSession = false := by
    rw [Request.isNewSession]
    exact notOpening
  cases applied_of_apply applies with
  | close isClose => exact .close isClose
  | newSession isOpening => exact .opened isOpening
  | updateSession response isUpdate =>
    exact .other replica.toStoreState _ (.refl _) (by rw [isUpdate]; rfl) (by rw [isUpdate]; nofun)
  | returned notClose notOpening isAlive responds =>
    exact .other _ _ (keepsAuths_respond (by rw [responds]; rfl)) (notNew notOpening) notClose
  | thrown notClose notOpening isAlive throws =>
    exact .other _ _ (keepsAuths_respond (by rw [throws]; rfl)) (notNew notOpening) notClose
  | dropped notClose notOpening isDead =>
    exact .other replica.toStoreState replica.zxid (.refl _) (notNew notOpening) notClose

theorem SessionStep.sessionIdCounter (step : SessionStep replica entry after) :
    after.sessionIdCounter =
      replica.sessionIdCounter + if entry.request.isNewSession then 1 else 0 := by
  cases step with
  | close isClose => simp [closeSession, isClose, Request.isNewSession]
  | opened isOpening => simp [newSession, isOpening, Request.isNewSession]
  | other state zxid kept isOther => simp [isOther]

/-- How many ids are handed out before this one, from the first on. -/
def ordinal (first id : Int64) : ℕ := (id - first).toUInt64.toNat

theorem ordinal_add (first : Int64) {count : ℕ} (isBounded : count < 2 ^ 64) :
    ordinal first (first + Int64.ofNat count) = count := by
  have isDifference : first + Int64.ofNat count - first = Int64.ofNat count := by
    rw [Int64.add_comm, Int64.add_sub_cancel]
  rw [ordinal, isDifference, Int64.toUInt64_ofNat', UInt64.toNat_ofNat']
  exact Nat.mod_eq_of_lt isBounded

/-- So many ids are handed out, and the sessions have some of them. -/
structure IdsBelow (first : Int64) (count : ℕ) (replica : Replicated) : Prop where
  counter : replica.sessionIdCounter = first + Int64.ofNat count
  alive : ∀ session, replica.contains session → ordinal first session < count

def opens (entry : LogEntry) : ℕ := if entry.request.isNewSession then 1 else 0

theorem contains_closeSession (session other : Int64) :
    (replica.closeSession session).contains other =
      if other = session then false else replica.contains other := by
  rw [contains, closeSession, Finmap.lookup_erase_ite]
  split <;> rfl

theorem contains_newSession (request : NewSessionRequest) (session : Int64) :
    (replica.newSession request).contains session =
      (replica.contains session || session = replica.sessionIdCounter) := by
  rw [contains, newSession, SessionManager.emplaceTimeout]
  split
  next known =>
    by_cases isNew : session = replica.sessionIdCounter
    · rw [isNew, known]
      simp
    · simp [contains, isNew]
  next =>
    rw [Finmap.lookup_insert_ite]
    split
    next isNew => simp [isNew]
    next isOther => simp [contains, isOther]

namespace SessionStep

variable {first : Int64} {count : ℕ}

theorem idsBelow (step : SessionStep replica entry after) (ids : replica.IdsBelow first count)
    (isBounded : count < 2 ^ 64) : after.IdsBelow first (count + opens entry) := by
  cases step with
  | close isClose =>
    have opensNone : opens entry = 0 := by rw [opens, isClose]; rfl
    rw [opensNone]
    refine ⟨ids.counter, ?_⟩
    intro session isAlive
    rw [contains_closeSession] at isAlive
    split at isAlive
    · cases isAlive
    · exact ids.alive session isAlive
  | opened isOpening =>
    have opensOne : opens entry = 1 := by rw [opens, isOpening]; rfl
    rw [opensOne]
    constructor
    · rw [newSession, ids.counter, Int64.ofNat_add, Int64.add_assoc]
      rfl
    · intro session isAlive
      rw [contains_newSession, Bool.or_eq_true, decide_eq_true_iff] at isAlive
      rcases isAlive with isAlive | isNew
      · exact (ids.alive session isAlive).trans (Nat.lt_succ_self count)
      · rw [isNew, ids.counter, ordinal_add first isBounded]
        exact Nat.lt_succ_self count
  | other state zxid kept isOther =>
    have opensNone : opens entry = 0 := by rw [opens, isOther]; rfl
    rw [opensNone]
    exact ⟨ids.counter, ids.alive⟩

variable {session : Int64}

theorem ended (step : SessionStep replica entry after) (ids : replica.IdsBelow first count)
    (isBounded : count < 2 ^ 64) (isOld : ordinal first session < count)
    (isEnded : replica.contains session = false) :
    after.contains session = false := by
  cases step with
  | close =>
    rw [contains_closeSession, isEnded, ite_self]
  | opened =>
    rw [contains_newSession, isEnded, Bool.false_or, decide_eq_false_iff_not]
    intro isNew
    rw [isNew, ids.counter, ordinal_add first isBounded] at isOld
    exact Nat.lt_irrefl count isOld
  | other => exact isEnded

theorem auth_kept {auth : AuthID} (step : SessionStep replica entry after)
    (isMember : auth ∈ replica.authsOf session) :
    auth ∈ after.authsOf session ∨ after.contains session = false := by
  cases step with
  | close =>
    rw [contains_closeSession, StoreState.authsOf, closeSession, Finmap.lookup_erase_ite]
    split
    · exact .inr rfl
    · exact .inl isMember
  | opened => exact .inl isMember
  | other state zxid kept => exact .inl (kept session auth isMember)

end SessionStep

end Replicated

end RaftKeeper
