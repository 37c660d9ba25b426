import RaftKeeper.Store.TreeInvariant

/-!
# Calls return

A sound tree has a parent for every node, so no operation of a write Multi dereferences a
null pointer, and neither do the undo actions of a rollback.
-/

namespace RaftKeeper

open SessionManager

section

variable {state : StoreState}

theorem StoreState.remove_returns (wf : TreeWellFormed state.dataTree) (zxid : Int64)
    (request : RemoveRequest) : ∃ value, state.remove zxid request = .returned value := by
  unfold remove
  cases found : state.dataTree.lookup request.path with
  | none => exact ⟨_, rfl⟩
  | some node =>
    have parentFound : ∃ parent,
        state.dataTree.lookup (getParentPath request.path) = some parent := by
      by_cases isRoot : request.path = rootPath
      · rw [isRoot] at found ⊢
        exact ⟨node, by rw [getParentPath_rootPath, found]⟩
      · exact (wf.parent found isRoot).imp fun _ holds => holds.1
    rcases parentFound with ⟨parent, parentFound⟩
    simp only [parentFound]
    split
    · exact ⟨_, rfl⟩
    · split
      · exact ⟨_, rfl⟩
      · exact ⟨_, rfl⟩

theorem StoreState.process_write_returns (wf : TreeWellFormed state.dataTree)
    {request : SingleRequest} (isWrite : request.multiType = some .write) (platform : Platform)
    (zxid session time : Int64) :
    ∃ after response undo,
      state.process platform zxid session time request = .returned (after, response, undo) := by
  cases request with
  | create request => exact ⟨_, _, _, rfl⟩
  | remove request =>
    rcases remove_returns wf zxid request with ⟨⟨after, response, undo⟩, returns⟩
    exact ⟨after, response, undo, returns⟩
  | set request | check request => exact ⟨_, _, _, rfl⟩
  | _ => simp [SingleRequest.multiType] at isWrite

end

namespace StoreRequestMultiTxn

variable {platform : Platform} {zxid session time : Int64}

theorem loop_returns {requests : List SingleRequest} {state : StoreState}
    (responses : List Response) (undoActions : List Undo) (sound : TreeSound state)
    (isWrite : ∀ request ∈ requests, request.multiType = some .write)
    (noAlias : ∀ entry ∈ trace platform zxid session time .write requests state,
      entry.2.aliases = false)
    (undoable : ∀ later, TreeRestored state later →
      ∃ earlier, Undo.runAll undoActions later = some earlier) :
    ∃ after answers, loop platform zxid session time .write requests state responses undoActions =
      .returned (after, answers) := by
  induction requests generalizing state responses undoActions with
  | nil => exact ⟨_, _, rfl⟩
  | cons request rest ih =>
    have requestIsWrite := isWrite request List.mem_cons_self
    rcases StoreState.process_write_returns sound.wellFormed requestIsWrite platform zxid session
      time with ⟨after, response, undo, processed⟩
    have spec := StoreState.process_spec processed
    have effect := spec.effect (by simp [requestIsWrite])
    simp only [loop, trace, processed, and_true] at noAlias ⊢
    have noAliasHere : undo.aliases = false := noAlias (state, undo) List.mem_cons_self
    have undoableAfter : ∀ later, TreeRestored after later →
        ∃ earlier, Undo.runAll (undo :: undoActions) later = some earlier := by
      intro later restored
      rcases effect.treeRestored sound noAliasHere restored with ⟨middle, runs, middleRestored⟩
      simp only [Undo.runAll, runs]
      exact undoable middle middleRestored
    by_cases fails : response.error ≠ .zok
    · rcases undoableAfter after (.refl after) with ⟨earlier, runs⟩
      rw [spec.fails fails] at runs
      simp only [Undo.runAll, Undo.run_nothing] at runs
      rw [if_pos fails, runs]
      exact ⟨_, _, rfl⟩
    · rw [if_neg fails] at noAlias ⊢
      refine ih _ _ (effect.treeSound sound noAliasHere)
        (fun other isMember => isWrite other (List.mem_cons_of_mem _ isMember))
        (fun entry isMember => noAlias entry (List.mem_cons_of_mem _ isMember)) undoableAfter

end StoreRequestMultiTxn

namespace KeeperStore

variable {platform : Platform} {store start after : KeeperStore} {call : Call}

theorem processStoreRequest_sessionManager
    (ends : (start.processStoreRequest platform call).store = some after) :
    after.sessionManager = start.sessionManager := by
  unfold processStoreRequest at ends
  split at ends <;> cases ends <;> rfl

theorem setWatches_sessionManager {request : SetWatchesRequest}
    (ends : (start.setWatches call request).store = some after) :
    after.sessionManager = start.sessionManager := by
  unfold setWatches at ends
  split at ends <;> cases ends
  rfl

theorem processSessionRequest_sessionManager
    (indexed : start.sessionManager.sessionExpiryQueue.Indexed)
    (ends : (start.processSessionRequest platform call).store = some after) :
    ∃ queue : SessionExpiryQueue, queue.Indexed ∧
      after.sessionManager = { start.sessionManager with sessionExpiryQueue := queue } := by
  rcases updateSessionExpirationTime_spec indexed call.env.now
    call.request.sessionId with ⟨queue, queueIndexed, updated⟩
  refine ⟨queue, queueIndexed, ?_⟩
  simp only [processSessionRequest, updated] at ends
  split at ends
  · cases ends
    rfl
  · exact setWatches_sessionManager ends
  · exact processStoreRequest_sessionManager ends
  · exact processStoreRequest_sessionManager ends

theorem cleanEphemeralNodes_sessionManager (env : Environment) (session : Int64) :
    (start.cleanEphemeralNodes env session).1.sessionManager = start.sessionManager := by
  rcases cleanEphemeralNodes_spec start env session with ⟨watchManager, responses, cleaned⟩
  rw [cleaned]

theorem dispatch_indexed (indexed : start.sessionManager.sessionExpiryQueue.Indexed)
    (ends : (start.dispatch platform call).store = some after) :
    after.sessionManager.sessionExpiryQueue.Indexed := by
  have ordinary : (if !start.sessionManager.contains call.request.sessionId &&
      call.newLastZxid.isNone then .returned (start, [])
      else start.processSessionRequest platform call).store = some after →
      after.sessionManager.sessionExpiryQueue.Indexed := by
    intro ends
    split at ends
    · cases ends
      exact indexed
    · rcases processSessionRequest_sessionManager indexed ends with ⟨queue, queueIndexed, same⟩
      rw [same]
      exact queueIndexed
  unfold dispatch at ends
  split at ends
  · rcases expireSession_spec indexed call.request.sessionId with
      ⟨queue, queueIndexed, expired⟩
    simp only [closeSession, cleanEphemeralNodes_sessionManager, expired] at ends
    cases ends
    exact queueIndexed
  · rename_i request _
    rcases getSessionID_spec indexed call.env.now request.sessionTimeoutMs.toInt64 with
      ⟨queue, queueIndexed, opened⟩
    simp only [newSession, opened] at ends
    cases ends
    exact queueIndexed
  · rcases updateSessionTimeout_spec indexed call.env.now call.request.sessionId with
      ⟨queue, queueIndexed, updated⟩
    simp only [updateSession, updated] at ends
    cases ends
    exact queueIndexed
  · exact ordinary ends
  · exact ordinary ends

theorem next_indexed (moves : store.next platform call = some after)
    (indexed : store.sessionManager.sessionExpiryQueue.Indexed) :
    after.sessionManager.sessionExpiryQueue.Indexed := by
  unfold next processRequest at moves
  split at moves
  · exact dispatch_indexed indexed moves
  · rename_i zxid _
    split at moves
    · cases moves
      exact indexed
    · exact @dispatch_indexed platform { store with zxid := zxid } after call indexed moves

theorem Started.indexed (started : Started platform start) :
    start.sessionManager.sessionExpiryQueue.Indexed := by
  rcases started with ⟨interval, digest, starts⟩
  rcases Option.map_eq_some_iff.mp starts with ⟨tree, _, rfl⟩
  intro session time found
  simp [new] at found

variable {txn : StoreRequestMultiTxn}

theorem isMulti_of_executes (executed : store.executes call = some (.multi txn)) :
    ∃ type requests, call.request.request = .multi type requests ∧
      StoreRequestMultiTxn.make requests {} = .ok txn := by
  rcases make_cases (make_of_executes executed) with
    ⟨_, _, isSingle⟩ | ⟨type, requests, _, isMulti, isTxn, builds⟩
  · cases isSingle
  · cases isTxn
    exact ⟨type, requests, isMulti, builds⟩

variable {storeRequest : StoreRequest}

theorem respond_of_executes (executed : store.executes call = some storeRequest)
    (platform : Platform) (zxid : Int64) (sessionManager : SessionManager) :
    respond platform { store with zxid := zxid, sessionManager := sessionManager } call =
      storeRequest.process platform store.toStoreState zxid call.request.sessionId
        call.request.processTime call.request.request.operationType := by
  have made := make_of_executes executed
  unfold executes at executed
  simp only [respond, made] at executed ⊢
  repeat' split at executed
  all_goals cases executed
  · rename_i checks _ authorised
    simp [checks, authorised]
  · rename_i checks
    simp [checks]

theorem accepts_of_executes (executed : store.executes call = some storeRequest) :
    store.accepts call = true := by
  by_contra refused
  unfold executes at executed
  split at executed
  · cases executed
  · simp [refused] at executed

theorem processRequest_of_accepts (platform : Platform) (accepted : store.accepts call = true) :
    store.processRequest platform call =
        dispatch platform { store with zxid := call.newLastZxid.getD store.zxid } call ∧
      (!store.sessionManager.contains call.request.sessionId && call.newLastZxid.isNone) =
        false := by
  unfold accepts at accepted
  cases newZxid : call.newLastZxid with
  | none =>
    simp only [newZxid] at accepted
    simp [processRequest, newZxid, accepted]
  | some zxid =>
    simp only [newZxid, decide_eq_true_eq] at accepted
    simp [processRequest, newZxid, accepted]

theorem processRequest_multi {state : StoreState} {responses : List Response}
    (indexed : store.sessionManager.sessionExpiryQueue.Indexed)
    (executed : store.executes call = some (.multi txn))
    (looped : StoreRequestMultiTxn.loop platform (call.newLastZxid.getD store.zxid)
      call.request.sessionId call.request.processTime txn.operationType txn.concreteRequests
      store.toStoreState [] [] = .returned (state, responses)) :
    ∃ (queue : SessionExpiryQueue) (zxid : Int64) (answers : List ResponseForSession),
      store.processRequest platform call = .returned
        ({ toStoreState := state
           zxid := zxid
           sessionManager := { store.sessionManager with sessionExpiryQueue := queue }
           watchManager := (updateWatches call.env store.watchManager call.request.sessionId
             call.request.request
             { payload := StoreRequest.multiPayload call.request.request.operationType
                 responses }).1 },
          answers) := by
  rcases isMulti_of_executes executed with ⟨type, requests, isMulti, _⟩
  rcases updateSessionExpirationTime_spec indexed call.env.now
    call.request.sessionId with ⟨queue, _, updated⟩
  rcases processRequest_of_accepts platform (accepts_of_executes executed) with
    ⟨dispatched, alive⟩
  rw [dispatched]
  simp only [dispatch, isMulti, alive, Bool.false_eq_true, if_false, processSessionRequest, updated,
    processStoreRequest]
  rw [respond_of_executes executed platform]
  simp only [StoreRequest.process, looped, isMulti]
  exact ⟨queue, _, _, rfl⟩

end KeeperStore

end RaftKeeper
