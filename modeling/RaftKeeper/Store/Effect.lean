import RaftKeeper.Lib.Fallible
import RaftKeeper.Store.Operation

/-!
# What a request can do to the store

`Executed` chains the effects of the sub-requests of a Multi, and `CallEffect` says what a whole
call of `processRequest` can do. `trace` is the list of the operations that a call executes, each as
the state it ran in and its undo action.
-/

namespace RaftKeeper

open Undo

open List Result StoreRequest StoreRequestMultiTxn StoreState

/-- The state that a call leaves behind; one that stops the process or the thread leaves none. -/
def Result.final {σ α : Type} : Result σ (σ × α) → Option σ
  | .returned value => some value.1
  | .thrown _ state => some state
  | .crashed | .blocked => none

abbrev Trace := List (StoreState × Undo)

def Trace.undos (trace : Trace) : List Undo := (trace.map Prod.snd).reverse

namespace StoreRequestMultiTxn

/-- The operations that the loop of a Multi executes, up to the first that fails or throws. -/
def trace (platform : Platform) (zxid session time : Int64) (operationType : OperationType) :
    List SingleRequest → StoreState → Trace
  | [], _ => []
  | request :: rest, state =>
    match state.process platform zxid session time request with
    | .returned (after, response, undoAction) =>
      (state, undoAction) :: if response.error ≠ .zok ∧ operationType = .write then []
        else trace platform zxid session time operationType rest after
    | .thrown .. | .crashed | .blocked => []

/-- The sub-requests that the loop of a Multi starts, each with the state it starts in. -/
def steps (platform : Platform) (zxid session time : Int64) (operationType : OperationType) :
    List SingleRequest → StoreState → List (StoreState × SingleRequest)
  | [], _ => []
  | request :: rest, state =>
    (state, request) :: match state.process platform zxid session time request with
      | .returned (after, response, _) =>
        if response.error ≠ .zok ∧ operationType = .write then []
        else steps platform zxid session time operationType rest after
      | .thrown .. | .crashed | .blocked => []

theorem exists_step_of_trace {platform : Platform} {zxid session time : Int64}
    {operationType : OperationType} {requests : List SingleRequest} {state : StoreState}
    {entry : StoreState × Undo}
    (isMember : entry ∈ trace platform zxid session time operationType requests state) :
    ∃ request, (entry.1, request) ∈ steps platform zxid session time operationType requests state ∧
      request.UndoneBy entry.1 entry.2 := by
  induction requests generalizing state with
  | nil => simp [trace] at isMember
  | cons request rest ih =>
    cases processed : state.process platform zxid session time request with
    | crashed | blocked | thrown => simp [trace, processed] at isMember
    | returned value =>
      rcases value with ⟨after, response, undo⟩
      simp only [trace, steps, processed] at isMember ⊢
      rcases mem_cons.mp isMember with rfl | later
      · exact ⟨request, mem_cons_self, (process_spec processed).undone⟩
      · split at later
        · simp at later
        · rename_i succeeds
          rcases ih later with ⟨other, isStep, undone⟩
          rw [if_neg succeeds]
          exact ⟨other, mem_cons_of_mem _ isStep, undone⟩

def rollsBack (platform : Platform) (zxid session time : Int64) (operationType : OperationType) :
    List SingleRequest → StoreState → Bool
  | [], _ => false
  | request :: rest, state =>
    match state.process platform zxid session time request with
    | .returned (after, response, _) =>
      if response.error ≠ .zok ∧ operationType = .write then true
      else rollsBack platform zxid session time operationType rest after
    | .thrown .. => true
    | .crashed | .blocked => false

end StoreRequestMultiTxn

namespace StoreRequest

def trace (platform : Platform) (state : StoreState) (zxid session time : Int64) :
    StoreRequest → Trace
  | single request =>
    match state.process platform zxid session time request with
    | .returned (_, _, undoAction) => [(state, undoAction)]
    | .thrown .. | .crashed | .blocked => []
  | multi txn =>
    StoreRequestMultiTxn.trace platform zxid session time txn.operationType txn.concreteRequests
      state

/-- The operations that a store request starts, each with the state it starts in. -/
def steps (platform : Platform) (state : StoreState) (zxid session time : Int64) :
    StoreRequest → List (StoreState × SingleRequest)
  | single request => [(state, request)]
  | multi txn =>
    StoreRequestMultiTxn.steps platform zxid session time txn.operationType txn.concreteRequests
      state

def rollsBack (platform : Platform) (state : StoreState) (zxid session time : Int64) :
    StoreRequest → Bool
  | single _ => false
  | multi txn =>
    StoreRequestMultiTxn.rollsBack platform zxid session time txn.operationType
      txn.concreteRequests state

end StoreRequest

namespace KeeperStore

/-- Whether a call gets past the checks of its zxid and its session. -/
def accepts (store : KeeperStore) (call : Call) : Bool :=
  match call.newLastZxid with
  | none => store.sessionManager.contains call.request.sessionId
  | some zxid => store.zxid < zxid

def executes (store : KeeperStore) (call : Call) : Option StoreRequest :=
  match make call.request.request with
  | .error _ => none
  | .ok storeRequest =>
    if !store.accepts call then none
    else if call.checkAcl then
      match storeRequest.checkAuth store.toStoreState call.request.sessionId with
      | .ok true => some storeRequest
      | .ok false | .error _ => none
    else some storeRequest

def trace (platform : Platform) (store : KeeperStore) (call : Call) : Trace :=
  match store.executes call with
  | none => []
  | some storeRequest =>
    storeRequest.trace platform store.toStoreState (call.newLastZxid.getD store.zxid)
      call.request.sessionId call.request.processTime

def steps (platform : Platform) (store : KeeperStore) (call : Call) :
    List (StoreState × SingleRequest) :=
  match store.executes call with
  | none => []
  | some storeRequest =>
    storeRequest.steps platform store.toStoreState (call.newLastZxid.getD store.zxid)
      call.request.sessionId call.request.processTime

theorem exists_step_of_trace {platform : Platform} {store : KeeperStore} {call : Call}
    {entry : StoreState × Undo} (isMember : entry ∈ store.trace platform call) :
    ∃ request, (entry.1, request) ∈ store.steps platform call ∧
      request.UndoneBy entry.1 entry.2 := by
  unfold trace at isMember
  unfold steps
  split at isMember
  · simp at isMember
  · rename_i storeRequest _
    cases storeRequest with
    | single request =>
      simp only [StoreRequest.trace] at isMember
      split at isMember
      next processed =>
        rw [mem_singleton.mp isMember]
        exact ⟨request, mem_singleton.mpr rfl, (process_spec processed).undone⟩
      all_goals simp at isMember
    | multi txn => exact StoreRequestMultiTxn.exists_step_of_trace isMember

def rollsBack (platform : Platform) (store : KeeperStore) (call : Call) : Bool :=
  match store.executes call with
  | none => false
  | some storeRequest =>
    storeRequest.rollsBack platform store.toStoreState (call.newLastZxid.getD store.zxid)
      call.request.sessionId call.request.processTime

end KeeperStore

/-- The operations of a Multi, one after another. -/
inductive Executed (zxid session time : Int64) : StoreState → Trace → StoreState → Prop
  | nil (state : StoreState) : Executed zxid session time state [] state
  | cons {before middle after : StoreState} {undo : Undo} {rest : Trace}
      (effect : Effect zxid session time before middle undo)
      (executed : Executed zxid session time middle rest after) :
      Executed zxid session time before ((before, undo) :: rest) after

section

variable {zxid session time : Int64} {before after : StoreState} {trace : Trace}

theorem Executed.invariant (property : StoreState → Prop) (allowed : StoreState → Undo → Prop)
    (kept : ∀ {before after undo}, Effect zxid session time before after undo → property before →
      allowed before undo → property after)
    (executed : Executed zxid session time before trace after) (initially : property before)
    (meets : ∀ entry ∈ trace, allowed entry.1 entry.2) : property after := by
  induction executed with
  | nil => exact initially
  | cons effect _ ih =>
    exact ih (kept effect initially (meets _ mem_cons_self))
      fun entry isMember => meets entry (mem_cons_of_mem _ isMember)

end

theorem Undo.runAll_append (later earlier : List Undo) (state : StoreState) :
    runAll (later ++ earlier) state = (runAll later state).bind (runAll earlier) := by
  induction later generalizing state with
  | nil => rfl
  | cons undo rest ih =>
    rw [cons_append, runAll, runAll]
    cases undo.run state with
    | none => rfl
    | some undone => exact ih undone

theorem Trace.undos_cons (entry : StoreState × Undo) (trace : Trace) :
    Trace.undos (entry :: trace) = trace.undos ++ [entry.2] := by
  simp [Trace.undos]

variable {session : Int64} {zxid time : Int64} {after before : StoreState}
  {property : StoreState → Prop} {restored : StoreState → StoreState → Prop}

/--
The rollback rule. Suppose `restored before later` relates a state to what the undo
actions of all later operations have left of it. If every single undo action takes a
state related to the one after its effect to a state related to the one before it, then
a whole rollback ends in a state related to the one the chain started from.
-/
theorem Executed.rollback {later : StoreState} {trace : Trace}
    (allowed : StoreState → Undo → Prop)
    (kept : ∀ {before after undo}, Effect zxid session time before after undo → property before →
      allowed before undo → property after)
    (undoes : ∀ {before after undo later}, Effect zxid session time before after undo →
      property before → allowed before undo → restored after later →
        ∃ earlier, undo.run later = some earlier ∧ restored before earlier)
    (executed : Executed zxid session time before trace after) (initially : property before)
    (meets : ∀ entry ∈ trace, allowed entry.1 entry.2) (related : restored after later) :
    ∃ earlier, runAll trace.undos later = some earlier ∧ restored before earlier := by
  induction executed generalizing later with
  | nil => exact ⟨later, rfl, related⟩
  | @cons _ _ _ undo _ effect _ ih =>
    have allowedHere := meets _ mem_cons_self
    rcases ih (kept effect initially allowedHere)
      (fun entry isMember => meets entry (mem_cons_of_mem _ isMember)) related with
      ⟨middle, runsRest, middleRelated⟩
    rcases undoes effect initially allowedHere middleRelated with ⟨earlier, runs, finally_⟩
    refine ⟨earlier, ?_, finally_⟩
    rw [Trace.undos_cons, runAll_append, runsRest]
    simp [runAll, runs]

/-- What the loop of a Multi leaves behind. -/
def StoreRequestMultiTxn.Leaves (zxid session time : Int64) (before : StoreState) (trace : Trace)
    (rolledBack : Bool) (undoActions : List Undo) (after : StoreState) : Prop :=
  ∃ executed, Executed zxid session time before trace executed ∧
    if rolledBack then runAll (trace.undos ++ undoActions) executed = some after
    else after = executed

/-- The invariant rule for a Multi, which either succeeds or is rolled back. -/
theorem StoreRequestMultiTxn.Leaves.invariant {trace : Trace} {rolledBack : Bool}
    (allowed : StoreState → Undo → Prop)
    (kept : ∀ {before after undo}, Effect zxid session time before after undo → property before →
      allowed before undo → property after)
    (undoes : rolledBack = true → ∀ {before after undo later},
      Effect zxid session time before after undo → property before → allowed before undo →
        restored after later → ∃ earlier, undo.run later = some earlier ∧ restored before earlier)
    (unchanged : ∀ {state}, property state → restored state state)
    (restores : ∀ {state later}, property state → restored state later → property later)
    (leaves : Leaves zxid session time before trace rolledBack [] after)
    (initially : property before) (meets : ∀ entry ∈ trace, allowed entry.1 entry.2) :
    property after := by
  rcases leaves with ⟨executed, chain, ending⟩
  have holds := chain.invariant property allowed kept initially meets
  split at ending
  next fails =>
    rw [append_nil] at ending
    rcases chain.rollback allowed kept (undoes fails) initially meets (unchanged holds) with
      ⟨earlier, runs, related⟩
    rw [ending] at runs
    cases runs
    exact restores initially related
  next =>
    rw [ending]
    exact holds

namespace StoreRequestMultiTxn

variable {platform : Platform} {zxid session time : Int64} {operationType : OperationType}

theorem Leaves.cons {before middle after : StoreState} {undo : Undo} {rest : Trace}
    {rolledBack : Bool} {undoActions : List Undo}
    (effect : Effect zxid session time before middle undo)
    (leaves : Leaves zxid session time middle rest rolledBack (undo :: undoActions) after) :
    Leaves zxid session time before ((before, undo) :: rest) rolledBack undoActions after := by
  rcases leaves with ⟨executed, chain, ending⟩
  refine ⟨executed, .cons effect chain, ?_⟩
  rw [Trace.undos_cons]
  simpa using ending

/-- A run of the loop of a Multi to its end. -/
inductive Loops (platform : Platform) (zxid session time : Int64) (operationType : OperationType) :
    List SingleRequest → StoreState → List Response → List Undo → Bool →
      Result StoreState (StoreState × List Response) → Prop
  | done (state : StoreState) (responses : List Response) (undoActions : List Undo) :
      Loops platform zxid session time operationType [] state responses undoActions false
        (.returned (state, responses))
  | fails {request : SingleRequest} {rest : List SingleRequest} {state middle undone : StoreState}
      {response : Response} {undo : Undo} {responses : List Response} {undoActions : List Undo}
      (processed : state.process platform zxid session time request =
        .returned (middle, response, undo))
      (fails : response.error ≠ .zok ∧ operationType = .write)
      (undoes : runAll undoActions middle = some undone) :
      Loops platform zxid session time operationType (request :: rest) state responses undoActions
        true (.returned (undone, (responses ++ [response]).map (fun made =>
          errorResponse made.error) ++ rest.map fun _ => errorResponse .zruntimeinconsistency))
  | throws {request : SingleRequest} {rest : List SingleRequest} {state undone : StoreState}
      {exception : Exception} {responses : List Response} {undoActions : List Undo}
      (processed : state.process platform zxid session time request = .thrown exception state)
      (undoes : runAll undoActions state = some undone) :
      Loops platform zxid session time operationType (request :: rest) state responses undoActions
        true (.thrown exception undone)
  | step {request : SingleRequest} {rest : List SingleRequest} {state middle : StoreState}
      {response shown : Response} {undo : Undo} {responses : List Response}
      {undoActions : List Undo} {rolledBack : Bool}
      {result : Result StoreState (StoreState × List Response)}
      (processed : state.process platform zxid session time request =
        .returned (middle, response, undo))
      (succeeds : ¬ (response.error ≠ .zok ∧ operationType = .write))
      (isShown : response.error = .zok → shown = response)
      (loops : Loops platform zxid session time operationType rest middle (responses ++ [shown])
        (undo :: undoActions) rolledBack result) :
      Loops platform zxid session time operationType (request :: rest) state responses undoActions
        rolledBack result

variable {requests : List SingleRequest} {state after : StoreState} {responses : List Response}
  {undoActions : List Undo} {rolledBack : Bool}
  {result : Result StoreState (StoreState × List Response)}

theorem loops_of_final (ends : (loop platform zxid session time operationType requests state
      responses undoActions).final = some after) :
    Loops platform zxid session time operationType requests state responses undoActions
      (rollsBack platform zxid session time operationType requests state)
      (loop platform zxid session time operationType requests state responses undoActions) := by
  induction requests generalizing state responses undoActions with
  | nil => exact .done ..
  | cons request rest ih =>
    simp only [loop, rollsBack] at ends ⊢
    cases processed : state.process platform zxid session time request with
    | crashed | blocked => simp [processed, final] at ends
    | thrown exception thrownState =>
      have same := process_thrown processed
      subst same
      simp only [processed] at ends ⊢
      cases undoes : runAll undoActions thrownState with
      | none => simp [undoes, final] at ends
      | some undone => exact .throws processed undoes
    | returned value =>
      rcases value with ⟨middle, response, undo⟩
      simp only [processed] at ends ⊢
      by_cases fails : response.error ≠ .zok ∧ operationType = .write
      · simp only [if_pos fails] at ends ⊢
        cases undoes : runAll undoActions middle with
        | none => simp [undoes, final] at ends
        | some undone => exact .fails processed fails undoes
      · simp only [if_neg fails] at ends ⊢
        exact .step processed fails (fun isOk => if_neg fun shown => shown.2 isOk) (ih ends)

theorem Loops.leaves (loops : Loops platform zxid session time operationType requests state
      responses undoActions rolledBack result)
    (legal : ∀ request ∈ requests, request.multiType.isSome) (ends : result.final = some after) :
    Leaves zxid session time state
      (trace platform zxid session time operationType requests state) rolledBack undoActions
      after := by
  induction loops with
  | done =>
    cases ends
    exact ⟨_, .nil _, rfl⟩
  | fails processed fails undoes =>
    cases ends
    have spec := process_spec processed
    simp only [trace, processed, if_pos fails]
    refine .cons (spec.effect (legal _ mem_cons_self)) ⟨_, .nil _, ?_⟩
    rw [spec.fails fails.1]
    simpa [Trace.undos, runAll] using undoes
  | throws processed undoes =>
    cases ends
    simp only [trace, processed]
    exact ⟨_, .nil _, by simpa [Trace.undos] using undoes⟩
  | step processed succeeds _ _ ih =>
    simp only [trace, processed, if_neg succeeds]
    exact .cons ((process_spec processed).effect (legal _ mem_cons_self))
      (ih (fun other isMember => legal other (mem_cons_of_mem _ isMember)) ends)

end StoreRequestMultiTxn

namespace StoreRequest

variable {platform : Platform} {zxid session time : Int64} {type : OperationType}
  {state after : StoreState}

theorem process_single_final {request : SingleRequest}
    (ends : ((single request).process platform state zxid session time type).final = some after) :
    (after = state ∧ ∃ exception, state.process platform zxid session time request =
        .thrown exception state) ∨
      ∃ response undo, state.process platform zxid session time request =
        .returned (after, response, undo) := by
  rw [process] at ends
  cases processed : state.process platform zxid session time request with
  | crashed | blocked => simp [processed, final] at ends
  | thrown exception middle =>
    have same := process_thrown processed
    subst same
    rw [processed] at ends
    cases ends
    exact .inl ⟨rfl, exception, rfl⟩
  | returned value =>
    rcases value with ⟨middle, response, undo⟩
    rw [processed] at ends
    cases ends
    exact .inr ⟨response, undo, rfl⟩

theorem process_multi_final {txn : StoreRequestMultiTxn} :
    ((multi txn).process platform state zxid session time type).final =
      (loop platform zxid session time txn.operationType
        txn.concreteRequests state [] []).final := by
  rw [process]
  cases loop platform zxid session time txn.operationType
    txn.concreteRequests state [] [] <;> rfl

theorem process_multi_leaves {txn : StoreRequestMultiTxn}
    (legal : ∀ request ∈ txn.concreteRequests, request.multiType.isSome)
    (ends : ((multi txn).process platform state zxid session time type).final = some after) :
    Leaves zxid session time state ((multi txn).trace platform state zxid session time)
      ((multi txn).rollsBack platform state zxid session time) [] after := by
  rw [process_multi_final] at ends
  exact (loops_of_final ends).leaves legal ends

end StoreRequest

/-- What a call of `processRequest` can do to the state that store requests work on. -/
inductive CallEffect (platform : Platform) (store : KeeperStore) (call : Call) : StoreState → Prop
  | leaves {after : StoreState} (zxid : Int64)
      (leaves : Leaves zxid call.request.sessionId call.request.processTime
        store.toStoreState (store.trace platform call) (store.rollsBack platform call) [] after) :
      CallEffect platform store call after
  | auth (auths : Dict Int64 AuthIDs) :
      CallEffect platform store call { store.toStoreState with sessionAndAuth := auths }
  | setACL {path : Bytes} {node : KeeperNode} (nodeAcls : ACLs) (auths : Dict Int64 AuthIDs)
      (sameAuths : store.SameAuths auths) (found : store.dataTree.lookup path = some node) :
      CallEffect platform store call
        { store.toStoreState with
          sessionAndAuth := auths
          aclMap := (store.aclMap.intern nodeAcls).2
          dataTree := store.dataTree.insert path
            { node with
              aclId := (store.aclMap.intern nodeAcls).1
              stat := { node.stat with aversion := node.stat.aversion + 1 } } }
  | close (order : Enumeration Int64 Bytes) (session : Int64) :
      CallEffect platform store call
        { store.toStoreState with
          dataTree := (order.list session (ephemeralsOf store.ephemerals session)).foldl
            dropEphemeral store.dataTree
          ephemerals := store.ephemerals.erase session
          sessionAndAuth := store.sessionAndAuth.erase session }

namespace StoreRequestMultiTxn

variable {requests : List Request} {start txn : StoreRequestMultiTxn}

theorem make_spec (made : make requests start = .ok txn)
    (uniform : ∀ request ∈ start.concreteRequests, request.multiType = some start.operationType) :
    txn.concreteRequests.map Request.single =
        start.concreteRequests.map Request.single ++ requests ∧
      ∀ request ∈ txn.concreteRequests, request.multiType = some txn.operationType := by
  induction requests generalizing start with
  | nil =>
    cases made
    exact ⟨(append_nil _).symm, uniform⟩
  | cons request rest ih =>
    rw [make] at made
    cases added : start.add request with
    | error exception => simp [added] at made
    | ok extended =>
      simp only [added] at made
      unfold add at added
      split at added
      · cases added
      rename_i concrete
      split at added
      · cases added
      rename_i type isType
      split at added <;> cases added
      rename_i notMixed
      have stillUniform : ∀ other ∈ start.concreteRequests ++ [concrete],
          other.multiType = some type := by
        intro other isMember
        rcases mem_append.mp isMember with earlier | last
        · have earlierType := uniform other earlier
          by_cases fresh : start.operationType = .unspecified
          · rw [fresh] at earlierType
            cases other <;> simp [SingleRequest.multiType] at earlierType
          · rw [earlierType, not_not.mp fun different => notMixed ⟨fresh, different⟩]
        · rw [mem_singleton.mp last, isType]
      rcases ih made stillUniform with ⟨isMap, sameType⟩
      refine ⟨?_, sameType⟩
      simpa using isMap

theorem make_concreteRequests (made : make requests {} = .ok txn) :
    txn.concreteRequests.map Request.single = requests :=
  (make_spec made (by simp)).1

theorem make_members (made : make requests {} = .ok txn) {concrete : SingleRequest}
    (isMember : concrete ∈ txn.concreteRequests) : .single concrete ∈ requests :=
  make_concreteRequests made ▸ mem_map_of_mem isMember

theorem make_uniform (made : make requests {} = .ok txn) :
    ∀ request ∈ txn.concreteRequests, request.multiType = some txn.operationType :=
  (make_spec made (by simp)).2

theorem make_legal (made : make requests {} = .ok txn) :
    ∀ request ∈ txn.concreteRequests, request.multiType.isSome :=
  fun request isMember => Option.isSome_of_eq_some (make_uniform made request isMember)

end StoreRequestMultiTxn

namespace KeeperStore

variable {platform : Platform} {store after : KeeperStore} {call : Call}

theorem make_cases {request : Request} {storeRequest : StoreRequest}
    (made : make request = .ok storeRequest) :
    (∃ own, request = .single own ∧ storeRequest = .single own) ∨
      ∃ type requests txn, request = .multi type requests ∧ storeRequest = .multi txn ∧
        StoreRequestMultiTxn.make requests {} = .ok txn := by
  cases request with
  | single own => cases own <;> cases made <;> exact .inl ⟨_, rfl, rfl⟩
  | multi type requests =>
    rcases Except.map_eq_ok_iff.mp made with ⟨txn, builds, rfl⟩
    exact .inr ⟨type, requests, txn, rfl, rfl, builds⟩

theorem multi_legal {request : Request} {txn : StoreRequestMultiTxn}
    (made : make request = .ok (.multi txn)) :
    ∀ member ∈ txn.concreteRequests, member.multiType.isSome := by
  rcases make_cases made with ⟨_, _, isSingle⟩ | ⟨_, _, _, _, isTxn, builds⟩
  · cases isSingle
  · cases isTxn
    exact StoreRequestMultiTxn.make_legal builds

theorem cleanEphemeralNodes_spec (start : KeeperStore) (env : Environment) (session : Int64) :
    ∃ watchManager responses, start.cleanEphemeralNodes env session =
      ({ start with
          dataTree := (env.ephemeralPaths.list session
            (ephemeralsOf start.ephemerals session)).foldl dropEphemeral start.dataTree
          ephemerals := start.ephemerals.erase session
          watchManager := watchManager }, responses) := by
  unfold cleanEphemeralNodes
  cases found : start.ephemerals.lookup session with
  | none =>
    refine ⟨start.watchManager, [], ?_⟩
    simp [ephemeralsOf, found, Finmap.erase_of_absent found]
  | some paths =>
    simp only [ephemeralsOf, found, Option.getD_some]
    exact ⟨_, _, rfl⟩

theorem make_of_executes {storeRequest : StoreRequest}
    (executed : store.executes call = some storeRequest) :
    make call.request.request = .ok storeRequest := by
  unfold executes at executed
  repeat' split at executed
  all_goals cases executed
  all_goals assumption

/-- How a call ends: it closes a session, is refused, or executes a store request. -/
inductive Outcome (platform : Platform) (store : KeeperStore) (call : Call) : StoreState → Prop
  | close (isClose : call.request.request = .single .close) :
      Outcome platform store call
        { store.toStoreState with
          dataTree := (call.env.ephemeralPaths.list call.request.sessionId
            (ephemeralsOf store.ephemerals call.request.sessionId)).foldl
              dropEphemeral store.dataTree
          ephemerals := store.ephemerals.erase call.request.sessionId
          sessionAndAuth := store.sessionAndAuth.erase call.request.sessionId }
  | refused (notClose : call.newLastZxid = none → call.request.request ≠ .single .close)
      (nothing : store.executes call = none) : Outcome platform store call store.toStoreState
  | executed {storeRequest : StoreRequest} {after : StoreState} (type : OperationType)
      (notClose : call.request.request ≠ .single .close)
      (executed : store.executes call = some storeRequest)
      (ends : (storeRequest.process platform store.toStoreState
        (call.newLastZxid.getD store.zxid) call.request.sessionId call.request.processTime
          type).final = some after) :
      Outcome platform store call after

variable {start : KeeperStore}

theorem respond_outcome {state : StoreState} (notClose : call.request.request ≠ .single .close)
    (ends : (start.respond platform call).final = some state)
    (sameState : start.toStoreState = store.toStoreState)
    (sameZxid : start.zxid = call.newLastZxid.getD store.zxid) (accepted : store.accepts call) :
    Outcome platform store call state := by
  unfold respond at ends
  rw [sameState, sameZxid] at ends
  cases made : make call.request.request with
  | error exception =>
    rw [made] at ends
    cases ends
    exact .refused (fun _ => notClose) (by simp [executes, made])
  | ok storeRequest =>
    simp only [made] at ends
    have checked : store.executes call =
        match (if call.checkAcl then
          storeRequest.checkAuth store.toStoreState call.request.sessionId else .ok true) with
        | .ok true => some storeRequest
        | .ok false | .error _ => none := by
      simp only [executes, made, accepted]
      cases call.checkAcl <;> rfl
    split at ends
    next denied =>
      cases ends
      exact .refused (fun _ => notClose) (by rw [checked, denied])
    next denied =>
      cases ends
      exact .refused (fun _ => notClose) (by rw [checked, denied])
    next passed => exact .executed _ notClose (by rw [checked, passed]) ends

theorem outcome_unchanged {request : SingleRequest} {response : Response}
    (isSingle : call.request.request = .single request)
    (notClose : call.request.request ≠ .single .close)
    (unchanged : ∀ zxid, store.toStoreState.process platform zxid call.request.sessionId
      call.request.processTime request = .returned (store.toStoreState, response, .nothing)) :
    Outcome platform store call store.toStoreState := by
  cases executed : store.executes call with
  | none => exact .refused (fun _ => notClose) executed
  | some storeRequest =>
    refine .executed .unspecified notClose executed ?_
    rcases make_cases (make_of_executes executed) with ⟨own, isOwn, rfl⟩ | ⟨_, _, _, isMulti, _⟩
    · cases isSingle.symm.trans isOwn
      simp [StoreRequest.process, unchanged, Result.final]
    · cases isSingle.symm.trans isMulti

theorem processStoreRequest_outcome (notClose : call.request.request ≠ .single .close)
    (ends : (start.processStoreRequest platform call).store = some after)
    (sameState : start.toStoreState = store.toStoreState)
    (sameZxid : start.zxid = call.newLastZxid.getD store.zxid) (accepted : store.accepts call) :
    Outcome platform store call after.toStoreState := by
  unfold processStoreRequest at ends
  have final : (start.respond platform call).final = some after.toStoreState := by
    cases responded : start.respond platform call with
    | crashed | blocked => simp [responded, Result.store] at ends
    | thrown exception state =>
      rw [responded] at ends
      cases ends
      rfl
    | returned value =>
      simp only [responded] at ends
      cases ends
      rfl
  exact respond_outcome notClose final sameState sameZxid accepted

theorem processSessionRequest_outcome (notClose : call.request.request ≠ .single .close)
    (ends : (start.processSessionRequest platform call).store = some after)
    (sameState : start.toStoreState = store.toStoreState)
    (sameZxid : start.zxid = call.newLastZxid.getD store.zxid) (accepted : store.accepts call) :
    Outcome platform store call after.toStoreState := by
  unfold processSessionRequest at ends
  cases updated : start.sessionManager.updateSessionExpirationTime call.env.now
    call.request.sessionId with
  | none => simp [updated, Result.store] at ends
  | some sessionManager =>
    simp only [updated] at ends
    cases isRequest : call.request.request with
    | multi type requests =>
      simp only [isRequest] at ends
      exact processStoreRequest_outcome notClose ends sameState sameZxid accepted
    | single request =>
      cases request with
      | heartbeat =>
        simp only [isRequest] at ends
        cases ends
        rw [sameState]
        exact outcome_unchanged isRequest notClose fun _ => rfl
      | setWatches request =>
        simp only [isRequest, setWatches] at ends
        split at ends <;> cases ends
        rw [sameState]
        exact outcome_unchanged isRequest notClose fun _ => rfl
      | _ =>
        simp only [isRequest] at ends
        exact processStoreRequest_outcome notClose ends sameState sameZxid accepted

theorem executes_of_refused (refused : store.accepts call = false) :
    store.executes call = none := by
  unfold executes
  cases make call.request.request <;> simp [refused]

theorem dispatch_outcome (ends : (start.dispatch platform call).store = some after)
    (sameState : start.toStoreState = store.toStoreState)
    (sameZxid : start.zxid = call.newLastZxid.getD store.zxid) (acceptance : store.accepts call =
      !(!start.sessionManager.contains call.request.sessionId && call.newLastZxid.isNone)) :
    Outcome platform store call after.toStoreState := by
  have ordinary (notClose : call.request.request ≠ .single .close)
      (ends : (if !start.sessionManager.contains call.request.sessionId &&
        call.newLastZxid.isNone then .returned (start, [])
          else start.processSessionRequest platform call).store = some after) :
      Outcome platform store call after.toStoreState := by
    split at ends
    next dead =>
      cases ends
      rw [sameState]
      exact .refused (fun _ => notClose) (executes_of_refused (by simp [acceptance, dead]))
    next alive =>
      exact processSessionRequest_outcome notClose ends sameState sameZxid
        (by rw [acceptance, Bool.eq_false_of_not_eq_true alive]; rfl)
  unfold dispatch at ends
  cases isRequest : call.request.request with
  | multi type requests =>
    simp only [isRequest] at ends
    exact ordinary (by simp [isRequest]) ends
  | single request =>
    cases request with
    | close =>
      rcases cleanEphemeralNodes_spec start call.env call.request.sessionId with
        ⟨watchManager, responses, cleaned⟩
      simp only [isRequest, closeSession, cleaned] at ends
      split at ends <;> cases ends
      rw [sameState]
      exact .close isRequest
    | newSession request =>
      simp only [isRequest, newSession] at ends
      split at ends <;> cases ends
      rw [sameState]
      exact .refused (by simp [isRequest]) (by simp [executes, isRequest, StoreRequest.make])
    | updateSession request =>
      simp only [isRequest, updateSession] at ends
      split at ends <;> cases ends
      rw [sameState]
      exact .refused (by simp [isRequest]) (by simp [executes, isRequest, StoreRequest.make])
    | _ =>
      simp only [isRequest] at ends
      exact ordinary (by simp [isRequest]) ends

theorem next_outcome (moves : store.next platform call = some after) :
    Outcome platform store call after.toStoreState := by
  unfold next processRequest at moves
  cases newZxid : call.newLastZxid with
  | none =>
    simp only [newZxid] at moves
    exact dispatch_outcome moves rfl (by simp [newZxid]) (by simp [accepts, newZxid])
  | some zxid =>
    simp only [newZxid] at moves
    split at moves
    next stale =>
      cases moves
      exact .refused (by simp [newZxid])
        (executes_of_refused (by simpa [accepts, newZxid] using stale))
    next fresh =>
      have accepted : store.accepts call = true := by
        simpa [accepts, newZxid] using fresh
      exact dispatch_outcome moves rfl (by simp [newZxid]) (by simp [accepted, newZxid])

theorem callEffect_of_executes_none (nothing : store.executes call = none) :
    CallEffect platform store call store.toStoreState :=
  .leaves store.zxid ⟨store.toStoreState, by
    simpa [trace, nothing] using Executed.nil store.toStoreState, by simp [rollsBack, nothing]⟩

theorem next_callEffect (moves : store.next platform call = some after) :
    CallEffect platform store call after.toStoreState := by
  have outcome := next_outcome moves
  generalize after.toStoreState = final at outcome
  cases outcome with
  | close => exact .close call.env.ephemeralPaths call.request.sessionId
  | refused _ nothing => exact callEffect_of_executes_none nothing
  | @executed storeRequest _ type _ executed ends =>
    cases storeRequest with
    | single request =>
      have keeps : store.rollsBack platform call = false := by rw [rollsBack, executed]; rfl
      rcases process_single_final ends with
        ⟨same, exception, throws⟩ | ⟨response, undo, processed⟩
      · refine .leaves store.zxid ⟨store.toStoreState, ?_, by simpa [keeps] using same⟩
        simpa [trace, executed, StoreRequest.trace, throws] using
          Executed.nil store.toStoreState
      rcases process_cases processed with
        effect | ⟨auths, isAuth⟩ |
        ⟨own, node, nodeAcls, auths, -, sameAuths, found, isSetACL⟩
      · refine .leaves (call.newLastZxid.getD store.zxid) ⟨final, ?_, by simp [keeps]⟩
        simpa [trace, executed, StoreRequest.trace, processed] using
          Executed.cons effect (.nil final)
      · exact isAuth ▸ .auth auths
      · exact isSetACL ▸ .setACL nodeAcls auths sameAuths found
    | multi txn =>
      refine .leaves (call.newLastZxid.getD store.zxid) ?_
      simp only [trace, rollsBack, executed]
      exact process_multi_leaves (multi_legal (make_of_executes executed)) ends

end KeeperStore

end RaftKeeper
