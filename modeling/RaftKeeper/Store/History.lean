import RaftKeeper.Store.Ownership

/-!
# The history of the tree

Several fields of a node say how often or when something was done to it. To state what they mean,
the changes that committed requests make to the tree are recorded beside the store, the latest
first. A Multi that is rolled back makes none.
-/

namespace RaftKeeper

/-- The operations of a request that is not rolled back, and the changes they report. -/
inductive Performed (zxid session time : Int64) :
    StoreState → List SingleRequest → List Change → StoreState → Prop
  | nil (state : StoreState) : Performed zxid session time state [] [] state
  | cons {before middle after : StoreState} {request : SingleRequest} {change : Option Change}
      {requests : List SingleRequest} {changes : List Change}
      (operation : Operation zxid session time before request middle change)
      (performed : Performed zxid session time middle requests changes after) :
      Performed zxid session time before (request :: requests) (change.toList ++ changes) after

def StoreRequestMultiTxn.changes (platform : Platform) (zxid session time : Int64) :
    List SingleRequest → StoreState → List Change
  | [], _ => []
  | request :: rest, state =>
    match state.process platform zxid session time request with
    | .returned (after, response, _) =>
      (request.change state response).toList ++ changes platform zxid session time rest after
    | .thrown .. | .crashed | .blocked => []

/-- The changes that a store request makes; a Multi that is rolled back makes none. -/
def StoreRequest.changes (platform : Platform) (state : StoreState) (zxid session time : Int64) :
    StoreRequest → List Change
  | single request =>
    match state.process platform zxid session time request with
    | .returned (_, response, _) => (request.change state response).toList
    | .thrown .. | .crashed | .blocked => []
  | multi txn =>
    if StoreRequestMultiTxn.rollsBack platform zxid session time txn.operationType
      txn.concreteRequests state then []
    else
      StoreRequestMultiTxn.changes platform zxid session time txn.concreteRequests state

/-- The operations that a store request executes and takes back. -/
def StoreRequest.undone (platform : Platform) (state : StoreState) (zxid session time : Int64)
    (storeRequest : StoreRequest) : Trace :=
  if storeRequest.rollsBack platform state zxid session time then
    storeRequest.trace platform state zxid session time
  else []

/--
What a log entry can do to the state that store requests work on: the changes it makes, and
the operations that it takes back.
-/
inductive TreeStep (zxid session time : Int64) (before : StoreState) :
    List Change → Trace → StoreState → Prop
  | performed {requests : List SingleRequest} {changes : List Change} {after : StoreState}
      (performed : Performed zxid session time before requests changes after) :
      TreeStep zxid session time before changes [] after
  | rolledBack {trace : Trace} {executed after : StoreState}
      (chain : Executed zxid session time before trace executed)
      (runs : Undo.runAll trace.undos executed = some after) :
      TreeStep zxid session time before [] trace after
  | closed :
      TreeStep zxid session time before [.expired (ephemeralsOf before.ephemerals session)] []
        { before with
          dataTree := Replicated.dropEphemerals before.dataTree
            (ephemeralsOf before.ephemerals session)
          ephemerals := before.ephemerals.erase session
          sessionAndAuth := before.sessionAndAuth.erase session }

section

variable {platform : Platform} {zxid session time : Int64} {state after : StoreState}

theorem TreeStep.unchanged (zxid session time : Int64) (state : StoreState) :
    TreeStep zxid session time state [] [] state := .performed (.nil state)

variable {operationType : OperationType} {requests : List SingleRequest} {responses : List Response}
  {undoActions : List Undo} {rolledBack : Bool}
  {result : Result StoreState (StoreState × List Response)}

theorem StoreRequestMultiTxn.Loops.performed (loops : Loops platform zxid session time
      operationType requests state responses undoActions rolledBack result)
    (keeps : rolledBack = false) (ends : result.final = some after) :
    Performed zxid session time state requests
      (changes platform zxid session time requests state) after := by
  induction loops with
  | done =>
    cases ends
    exact .nil _
  | fails | throws => cases keeps
  | step processed _ _ _ ih =>
    rw [changes, processed]
    exact .cons (StoreState.process_spec processed).operation (ih keeps ends)

theorem StoreRequestMultiTxn.Loops.rolledBack_of_thrown (loops : Loops platform zxid session time
      operationType requests state responses undoActions rolledBack result) {exception : Exception}
    (throws : result = .thrown exception after) : rolledBack = true := by
  induction loops with
  | done => cases throws
  | fails | throws => rfl
  | step _ _ _ _ ih => exact ih throws

theorem StoreRequest.process_treeStep {storeRequest : StoreRequest} {type : OperationType}
    (legal : ∀ txn, storeRequest = .multi txn →
      ∀ request ∈ txn.concreteRequests, request.multiType.isSome)
    (ends : (storeRequest.process platform state zxid session time type).final = some after) :
    TreeStep zxid session time state
      (storeRequest.changes platform state zxid session time)
      (storeRequest.undone platform state zxid session time) after := by
  cases storeRequest with
  | single request =>
    rw [changes]
    rcases process_single_final ends with ⟨same, exception, throws⟩ | ⟨response, undo, processed⟩
    · rw [throws, same]
      exact .unchanged ..
    · rw [processed]
      have performed := Performed.cons (StoreState.process_spec processed).operation (.nil _)
      rw [List.append_nil] at performed
      exact .performed performed
  | multi txn =>
    rw [changes, undone, rollsBack]
    cases keeps : StoreRequestMultiTxn.rollsBack platform zxid session time txn.operationType
        txn.concreteRequests state with
    | false =>
      rw [process_multi_final] at ends
      rw [if_neg Bool.false_ne_true, if_neg Bool.false_ne_true]
      exact .performed ((StoreRequestMultiTxn.loops_of_final ends).performed keeps ends)
    | true =>
      rw [if_pos rfl, if_pos rfl]
      rcases process_multi_leaves (legal txn rfl) ends with ⟨executed, chain, runs⟩
      rw [rollsBack, keeps, if_pos rfl, List.append_nil] at runs
      exact .rolledBack chain runs

end

namespace KeeperStore

def changes (platform : Platform) (store : KeeperStore) (call : Call) : List Change :=
  match call.request.request with
  | .single .close => [.expired (ephemeralsOf store.ephemerals call.request.sessionId)]
  | .single _ | .multi .. =>
    match store.executes call with
    | none => []
    | some storeRequest =>
      storeRequest.changes platform store.toStoreState (call.newLastZxid.getD store.zxid)
        call.request.sessionId call.request.processTime

def undone (platform : Platform) (store : KeeperStore) (call : Call) : Trace :=
  if store.rollsBack platform call then store.trace platform call else []

variable {platform : Platform} {store after : KeeperStore} {call : Call}

theorem changes_of_executes {storeRequest : StoreRequest} (served : call.Served)
    (executed : store.executes call = some storeRequest)
    (notClose : call.request.request ≠ .single .close) :
    store.changes platform call = storeRequest.changes platform store.toStoreState store.zxid
        call.request.sessionId call.request.processTime ∧
      store.undone platform call = storeRequest.undone platform store.toStoreState store.zxid
        call.request.sessionId call.request.processTime := by
  rw [changes, undone, rollsBack, trace, executed, served.noZxid]
  split
  next isClose => exact absurd isClose notClose
  all_goals exact ⟨rfl, rfl⟩

theorem changes_of_executes_none (executed : store.executes call = none)
    (notClose : call.request.request ≠ .single .close) :
    store.changes platform call = [] ∧ store.undone platform call = [] := by
  rw [changes, undone, rollsBack, trace, executed]
  split
  next isClose => exact absurd isClose notClose
  all_goals exact ⟨rfl, rfl⟩

theorem undone_single {request : SingleRequest}
    (isSingle : call.request.request = .single request) : store.undone platform call = [] := by
  rw [undone, if_neg]
  rw [rollsBack]
  split
  · exact Bool.false_ne_true
  next storeRequest executed =>
    rcases make_cases (make_of_executes executed) with ⟨_, _, rfl⟩ | ⟨_, _, _, isMulti, _⟩
    · exact Bool.false_ne_true
    · cases isSingle.symm.trans isMulti

theorem executes_of_dead (served : call.Served)
    (isDead : store.sessionManager.contains call.request.sessionId = false) :
    store.executes call = none := by
  have notAccepted : store.accepts call = false := by
    rw [accepts, served.noZxid]
    exact isDead
  rw [executes, notAccepted]
  split <;> rfl

theorem next_treeStep (served : call.Served) (moves : store.next platform call = some after) :
    TreeStep store.zxid call.request.sessionId call.request.processTime store.toStoreState
      (store.changes platform call) (store.undone platform call) after.toStoreState := by
  have outcome := next_outcome moves
  generalize after.toStoreState = final at outcome
  cases outcome with
  | close isClose =>
    rw [Replicated.foldl_dropEphemeral_list, changes, isClose, undone_single isClose]
    exact .closed
  | refused notClose nothing =>
    rcases @changes_of_executes_none platform store call nothing (notClose served.noZxid) with
      ⟨noChanges, nothingUndone⟩
    rw [noChanges, nothingUndone]
    exact .unchanged ..
  | @executed storeRequest _ type notClose executed ends =>
    rcases @changes_of_executes platform store call _ served executed notClose with
      ⟨sameChanges, sameUndone⟩
    rw [served.noZxid] at ends
    rw [sameChanges, sameUndone]
    refine StoreRequest.process_treeStep ?_ ends
    rintro txn rfl
    exact multi_legal (make_of_executes executed)

end KeeperStore

end RaftKeeper
