import RaftKeeper.Store.Law
import RaftKeeper.Store.NoPoison
import RaftKeeper.Store.WatchTriggers

/-!
# Watches and the changes they wait for

A data watch waits until the node is created, changed or deleted, a list watch until a child is
created or deleted or the node itself is deleted. The server triggers watches by the path and the op
code of the request, and for a closed session by the paths in the index of its ephemeral nodes. This
agrees with the changes of the tree (`Change.due`) unless the request has a sequential Create, whose
new node has another path, or a CreateIfNotExists, whose op code triggers nothing.
-/

namespace RaftKeeper

open List StoreRequest StoreRequestMultiTxn WatchManager

/-- The event that a change of the tree is for the watches of one kind on one path. -/
def Change.due (type : WatchType) (path : Bytes) : Change → Option Event
  | created _ own =>
    match type with
    | .data => if own = path then some .created else none
    | .list => if getParentPath own = path then some .child else none
  | written request =>
    match type with
    | .data => if request.path = path then some .changed else none
    | .list => none
  | removed request =>
    match type with
    | .data => if request.path = path then some .deleted else none
    | .list =>
      if getParentPath request.path = path then some .child
      else if request.path = path then some .deleted
      else none
  | expired paths =>
    match type with
    | .data => if path ∈ paths then some .deleted else none
    | .list =>
      if ∃ own ∈ paths, getParentPath own = path then some .child
      else if path ∈ paths then some .deleted
      else none

/-- A watch is due with the first change that it waits for. -/
def dueOf (changes : List Change) (type : WatchType) (path : Bytes) : Option Event :=
  changes.findSome? (Change.due type path)

theorem dueOf_append (first second : List Change) (type : WatchType) (path : Bytes) :
    dueOf (first ++ second) type path = (dueOf first type path).or (dueOf second type path) :=
  findSome?_append

theorem dueOf_singleton (change : Change) (type : WatchType) (path : Bytes) :
    dueOf [change] type path = change.due type path := by
  rw [dueOf, findSome?_cons]
  split
  next isDue => exact isDue.symm
  next notDue => exact notDue.symm

theorem due_created (request : CreateRequest) (own : Bytes) (type : WatchType) (path : Bytes) :
    (eventTriggers own .created).findSome? (Trigger.fires type path) =
      (Change.created request own).due type path := by
  cases type <;> simp [eventTriggers, Change.due, Trigger.findSome?_cons, Trigger.fires]

theorem due_written (request : SetRequest) (type : WatchType) (path : Bytes) :
    (eventTriggers request.path .changed).findSome? (Trigger.fires type path) =
      (Change.written request).due type path := by
  cases type <;> simp [eventTriggers, Change.due, Trigger.fires]

theorem due_removed (request : RemoveRequest) (type : WatchType) (path : Bytes) :
    (eventTriggers request.path .deleted).findSome? (Trigger.fires type path) =
      (Change.removed request).due type path := by
  cases type with
  | data => simp [eventTriggers, Change.due, Trigger.findSome?_cons, Trigger.fires]
  | list =>
    by_cases isOwn : request.path = path
    · subst isOwn
      by_cases isParent : getParentPath request.path = request.path
      · simp [eventTriggers, Change.due, Trigger.findSome?_cons, isParent]
      · simp [eventTriggers, Change.due, Trigger.findSome?_cons, isParent, Ne.symm isParent]
    · simp [eventTriggers, Change.due, Trigger.fires, isOwn]

theorem due_expired {paths : Finset Bytes} {order : List Bytes}
    (lists : ∀ path, path ∈ order ↔ path ∈ paths)
    (flat : ∀ path ∈ paths, getParentPath path ∉ paths) (type : WatchType) (path : Bytes) :
    (order.flatMap (eventTriggers · .deleted)).findSome? (Trigger.fires type path) =
      (Change.expired paths).due type path := by
  simp only [Change.due, ← lists] at flat ⊢
  clear lists
  induction order with
  | nil => cases type <;> simp
  | cons own rest ih =>
    have notParent : own ≠ getParentPath own := fun same => by simpa [← same] using flat own
    have ih := ih fun own isOwn => fun isParent =>
      flat own (mem_cons_of_mem _ isOwn) (mem_cons_of_mem _ isParent)
    simp only [flatMap_cons, findSome?_append, ih]
    cases type with
    | data =>
      rcases eq_or_ne own path with rfl | isOther
      · simp [eventTriggers, Trigger.findSome?_cons]
      · simp [eventTriggers, Trigger.fires, isOther, isOther.symm]
    | list =>
      -- No path of the list is the parent of another, so that one event at most is due.
      rcases eq_or_ne own path with rfl | isOther
      · have noChild : ∀ child ∈ rest, getParentPath child ≠ own := fun child isChild same =>
          flat child (mem_cons_of_mem _ isChild) (same ▸ mem_cons_self)
        simp [eventTriggers, Trigger.findSome?_cons, notParent, notParent.symm]
        exact noChild
      · by_cases isParent : getParentPath own = path <;>
          simp [eventTriggers, Trigger.fires, isOther, isOther.symm, isParent]

/-- What the events about a node tell: its data, and how often they were written. -/
def DataTree.content (tree : DataTree) (path : Bytes) : Option (Bytes × Int32) :=
  (tree.lookup path).map fun node => (node.data, node.stat.version)

theorem DataTree.content_modify {update : KeeperNode → KeeperNode}
    (keeps : ∀ node, (update node).data = node.data ∧
      (update node).stat.version = node.stat.version) (tree : DataTree) (key path : Bytes) :
    DataTree.content (tree.modify key update) path = tree.content path := by
  rw [DataTree.content, Finmap.lookup_modify]
  split
  next isKey =>
    subst isKey
    simp [DataTree.content, Function.comp_def, keeps]
  next => rfl

/-- The change is the difference of the two trees. -/
def Change.Between (before after : DataTree) : Change → Prop
  | created request own =>
    before.content own = none ∧ after.content own = some (request.data, 0) ∧
      ∀ path, path ≠ own → after.content path = before.content path
  | written request =>
    (∃ data version, before.content request.path = some (data, version) ∧
      after.content request.path = some (request.data, version + 1)) ∧
      ∀ path, path ≠ request.path → after.content path = before.content path
  | removed request =>
    before.content request.path ≠ none ∧ after.content request.path = none ∧
      ∀ path, path ≠ request.path → after.content path = before.content path
  | expired paths =>
    (∀ path ∈ paths, before.content path ≠ none ∧ after.content path = none) ∧
      ∀ path, path ∉ paths → after.content path = before.content path

/-- The changes lead from one tree to the other, one after another. -/
inductive Traced : DataTree → List Change → DataTree → Prop
  | nil {before after : DataTree} (same : ∀ path, after.content path = before.content path) :
      Traced before [] after
  | cons {before middle after : DataTree} {change : Change} {changes : List Change}
      (first : change.Between before middle) (others : Traced middle changes after) :
      Traced before (change :: changes) after

section

variable {zxid session time : Int64} {before after : StoreState}

theorem Traced.of_same {tree middle later : DataTree} {changes : List Change}
    (same : ∀ path, middle.content path = tree.content path)
    (traced : Traced middle changes later) :
    Traced tree changes later := by
  cases traced with
  | nil sameLater => exact .nil fun path => (sameLater path).trans (same path)
  | @cons _ _ _ change _ first others =>
    refine .cons ?_ others
    cases change <;> simpa only [Change.Between, same] using first

theorem Operation.traced {request : SingleRequest} {change : Option Change}
    (operation : Operation zxid session time before request after change) {changes : List Change}
    {later : DataTree} (others : Traced after.dataTree changes later) :
    Traced before.dataTree (change.toList ++ changes) later := by
  cases operation with
  | nothing => exact others
  | @setACL own node _ nodeAcls _ auths _ found =>
    refine others.of_same fun path => ?_
    rw [DataTree.content, Finmap.lookup_insert_ite]
    split
    next isOwn =>
      subst isOwn
      simp [DataTree.content, found]
    next => rfl
  | @create own parent _ nodeAcls _ auths _ parentFound _ absent _ =>
    refine .cons ⟨by simp [DataTree.content, absent], ?_, fun path isOther => ?_⟩ others
    · simp [DataTree.content, StoreState.addCreated, CreateRequest.node]
    · rw [DataTree.content, StoreState.addCreated, Finmap.lookup_insert_ite, if_neg isOther]
      exact DataTree.content_modify (by simp [KeeperNode.gainChild]) before.dataTree _ path
  | @remove own node parent _ found _ _ parentFound =>
    refine .cons ⟨by simp [DataTree.content, found], ?_, fun path isOther => ?_⟩ others
    · simp [DataTree.content, StoreState.dropRemoved]
    · rw [DataTree.content, StoreState.dropRemoved, Finmap.lookup_erase_ite, if_neg isOther]
      exact DataTree.content_modify (by simp [KeeperNode.loseChild]) before.dataTree _ path
  | @set own node _ found =>
    refine .cons ⟨⟨node.data, node.stat.version, by simp [DataTree.content, found], ?_⟩,
      fun path isOther => ?_⟩ others
    · simp [DataTree.content, KeeperNode.setData]
    · rw [DataTree.content, Finmap.lookup_insert_ite, if_neg isOther]
      rfl

theorem Executed.sameContent {trace : Trace} {executed : StoreState}
    (chain : Executed zxid session time before trace executed) (sound : OwnershipSound before)
    (runs : Undo.runAll trace.undos executed = some after) (path : Bytes) :
    after.dataTree.content path = before.dataTree.content path := by
  let written (node : KeeperNode) := (node.data, node.stat.version)
  have undoes : ∀ {before after undo later}, Effect zxid session time before after undo →
      OwnershipSound before → True →
      Finmap.Related (fun _ old new => written new = written old) after.dataTree later.dataTree →
      ∃ earlier, undo.run later = some earlier ∧ Finmap.Related
        (fun _ old new => written new = written old) before.dataTree earlier.dataTree :=
    fun effect sound _ => effect.related_undo (fun _ => rfl) (fun _ _ _ same => same)
      (fun _ _ _ same => same) (fun _ _ _ => rfl) sound.attached
  rcases chain.rollback (fun _ _ => True) (fun effect sound _ => effect.ownershipSound sound)
    undoes sound (fun _ _ => trivial) (Finmap.Related.iff_map_eq.mpr fun _ => rfl) with
    ⟨restored, runsRestored, same⟩
  rw [runs] at runsRestored
  cases runsRestored
  exact Finmap.Related.iff_map_eq.mp same path

theorem TreeStep.traced {changes : List Change} {undone : Trace}
    (step : TreeStep zxid session time before changes undone after)
    (sound : OwnershipSound before) : Traced before.dataTree changes after.dataTree := by
  cases step with
  | performed performed =>
    clear sound
    induction performed with
    | nil => exact .nil fun _ => rfl
    | cons operation _ ih => exact operation.traced ih
  | rolledBack chain runs => exact .nil (chain.sameContent sound runs)
  | closed =>
    refine .cons ⟨fun path isOwn => ?_, fun path isOther => ?_⟩ (.nil fun _ => rfl)
    · rcases sound.indexed.owned isOwn with ⟨node, found, _⟩
      simp [DataTree.content, found, lookup_dropEphemerals, isOwn]
    · simp [DataTree.content, lookup_dropEphemerals, isOther, KeeperNode.loseExpired,
        Function.comp_def]

end

/--
Whether a Create is one whose new node is found by its watches: the node has the path that
the request gives, and the request is no CreateIfNotExists.
-/
def SingleRequest.watchable : SingleRequest → Bool
  | create request => !request.isSequential && !request.notExists
  | _ => true

/-- Whether all Creates of a request are found by the watches on the new nodes. -/
def Request.watchable : Request → Bool
  | single request => request.watchable
  | multi _ requests =>
    requests.all fun
      | single request => request.watchable
      | multi .. => true

def SingleRequest.triggers (request : SingleRequest) : List Trigger :=
  requestTriggers request.getPath request.getOpNum

section

variable {platform : Platform} {zxid session time : Int64} {state after : StoreState}
  {response : Response} {undo : Undo}

theorem StoreState.create_change {request : CreateRequest}
    (watchable : (SingleRequest.create request).watchable = true)
    (created : state.create zxid session time request = (after, response, undo))
    (succeeds : response.error = .zok) :
    SingleRequest.change state response (.create request) =
      some (.created request request.path) := by
  simp only [SingleRequest.watchable, Bool.and_eq_true, Bool.not_eq_true'] at watchable
  have samePath : ∀ parent, request.pathCreated parent = request.path := by
    intro parent
    rw [CreateRequest.pathCreated, watchable.1]
    rfl
  simp only [create, samePath, watchable.2] at created
  cases parentFound : state.dataTree.lookup (getParentPath request.path) with
  | none =>
    simp only [parentFound] at created
    cases created
    cases succeeds
  | some parent =>
    simp only [parentFound] at created
    split at created
    · cases created
      cases succeeds
    split at created
    · cases created
      cases succeeds
    split at created
    · cases created
      cases succeeds
    rename_i absent
    split at created
    · cases created
      cases succeeds
    split at created
    · cases created
      cases succeeds
    · cases created
      rw [samePath, Bool.not_eq_true, Option.isSome_eq_false_iff] at absent
      simp [SingleRequest.change, absent]

variable {request : SingleRequest}

theorem SingleRequest.triggers_due (watchable : request.watchable = true)
    (processed : state.process platform zxid session time request =
      .returned (after, response, undo)) (succeeds : response.error = .zok) (type : WatchType)
    (path : Bytes) :
    request.triggers.findSome? (Trigger.fires type path) =
      dueOf (request.change state response).toList type path := by
  cases request with
  | create request =>
    rw [StoreState.process, Result.returned.injEq] at processed
    rw [StoreState.create_change watchable processed succeeds, Option.toList_some,
      dueOf_singleton, ← due_created]
    have plain : request.notExists = false := by
      simp only [SingleRequest.watchable, Bool.and_eq_true, Bool.not_eq_true'] at watchable
      exact watchable.2
    simp only [triggers, getOpNum, plain]
    rfl
  | set request =>
    rw [change, if_pos succeeds, Option.toList_some, dueOf_singleton, ← due_written]
    rfl
  | remove request =>
    rw [change, if_pos succeeds, Option.toList_some, dueOf_singleton, ← due_removed]
    rfl
  | check request =>
    simp only [triggers, getOpNum, change]
    cases request.notExists <;> rfl
  | list kind => cases kind <;> rfl
  | _ => rfl

theorem SingleRequest.change_of_fails (fails : response.error ≠ .zok) :
    request.change state response = none := by
  cases request with
  | create request =>
    simp only [change, fails, false_and, if_false]
    split <;> rfl
  | set request | remove request => rw [change, if_neg fails]
  | _ => rfl

end

namespace StoreRequestMultiTxn

variable {platform : Platform} {zxid session time : Int64} {state after : StoreState}
  {requests : List SingleRequest} {responses answers : List Response} {undoActions : List Undo}
  {rolledBack : Bool} {result : Result StoreState (StoreState × List Response)}

theorem Loops.succeeds (loops : Loops platform zxid session time .write requests state responses
      undoActions rolledBack result)
    (keeps : rolledBack = false) (returns : result = .returned (after, answers))
    (succeeded : ∀ response ∈ responses, response.error = .zok) :
    (∀ response ∈ answers, response.error = .zok) ∧
      answers.length = responses.length + requests.length := by
  induction loops with
  | done =>
    cases returns
    exact ⟨succeeded, rfl⟩
  | fails | throws => cases keeps
  | @step _ _ _ _ response shown _ _ _ _ _ _ succeeds isShown _ ih =>
    have isOk : response.error = .zok := by simpa using succeeds
    rcases ih keeps returns (by
      rw [isShown isOk, forall_mem_append, forall_mem_singleton]
      exact ⟨succeeded, isOk⟩) with ⟨allOk, lengths⟩
    refine ⟨allOk, ?_⟩
    rw [lengths, length_append, length_singleton, length_cons]
    omega

theorem Loops.triggers_due (loops : Loops platform zxid session time .write requests state
      responses undoActions rolledBack result)
    (keeps : rolledBack = false) (watchable : ∀ request ∈ requests, request.watchable = true)
    (type : WatchType) (path : Bytes) :
    (requests.flatMap SingleRequest.triggers).findSome? (Trigger.fires type path) =
      dueOf (changes platform zxid session time requests state) type path := by
  induction loops with
  | done => rfl
  | fails | throws => cases keeps
  | step processed succeeds _ _ ih =>
    rw [forall_mem_cons] at watchable
    simp only [changes, processed]
    rw [flatMap_cons, findSome?_append, dueOf_append,
      SingleRequest.triggers_due watchable.1 processed (by simpa using succeeds)]
    congr 1
    exact ih keeps watchable.2

theorem reads_change_nothing (reads : ∀ request ∈ requests, request.multiType ≠ some .write)
    (legal : ∀ request ∈ requests, request.multiType.isSome) :
    requests.flatMap SingleRequest.triggers = [] ∧
      changes platform zxid session time requests state = [] := by
  induction requests generalizing state with
  | nil => exact ⟨rfl, rfl⟩
  | cons request rest ih =>
    have isRead := reads request mem_cons_self
    have isLegal := legal request mem_cons_self
    have later := fun middle => @ih middle
      (fun other isMember => reads other (mem_cons_of_mem _ isMember))
      (fun other isMember => legal other (mem_cons_of_mem _ isMember))
    have nothing : request.triggers = [] ∧ ∀ state response,
        request.change state response = none := by
      cases request with
      | list kind => cases kind <;> exact ⟨rfl, fun _ _ => rfl⟩
      | get | «exists» => exact ⟨rfl, fun _ _ => rfl⟩
      | _ => simp [SingleRequest.multiType] at isRead isLegal
    refine ⟨by rw [flatMap_cons, nothing.1, (later state).1]; rfl, ?_⟩
    rw [changes]
    split
    · rw [nothing.2, (later _).2]
      rfl
    all_goals rfl

end StoreRequestMultiTxn

namespace KeeperStore

section

variable {platform : Platform} {state after : StoreState} {zxid session time : Int64}
  {response : Response} {manager : WatchManager} {env : Environment}

theorem delivers_of_due (env : Environment) (triggers : List Trigger) {changes : List Change}
    {result : WatchManager × List ResponseForSession}
    (triggered : result = manager.triggerAll env triggers)
    (due : ∀ type path, triggers.findSome? (Trigger.fires type path) = dueOf changes type path) :
    Delivers (dueOf changes) (fun _ => False) manager result.1 (watchEvents result.2) := by
  have delivers := delivers_triggerAll env manager triggers
  simp only [due] at delivers
  rw [triggered]
  exact delivers

theorem delivers_nothing (manager : WatchManager) :
    Delivers (dueOf []) (fun _ => False) manager manager [] :=
  delivers_of_due .sorted [] rfl fun _ _ => rfl

theorem updateWatches_of_fails {request : Request} (notRead : request.isReadRequest = false)
    (fails : response.error ≠ .zok) :
    updateWatches env manager session request response = (manager, []) := by
  rw [updateWatches, notRead, if_neg Bool.false_ne_true, if_neg fails]

theorem updateWatches_single {request : SingleRequest} (notRead : request.isReadRequest = false)
    (watchable : request.watchable = true) {undo : Undo}
    (processed : state.process platform zxid session time request =
      .returned (after, response, undo)) :
    Delivers (dueOf (request.change state response).toList) (fun _ => False) manager
      (updateWatches env manager session (.single request) response).1
      (watchEvents (updateWatches env manager session (.single request) response).2) := by
  have isWrite : (Request.single request).isReadRequest = false := notRead
  by_cases succeeds : response.error = .zok
  · refine delivers_of_due env request.triggers ?_ fun type path =>
      SingleRequest.triggers_due watchable processed succeeds type path
    rw [updateWatches, isWrite, if_neg Bool.false_ne_true, if_pos succeeds,
      triggerWatches_eq_triggerAll]
    simp only [triggering, flatMap_cons, flatMap_nil, append_nil]
    rfl
  · rw [SingleRequest.change_of_fails succeeds, updateWatches_of_fails isWrite succeeds]
    exact delivers_nothing manager

variable {type : OperationType} {requests : List Request} {txn : StoreRequestMultiTxn}

theorem updateWatches_multi_triggers (made : StoreRequestMultiTxn.make requests {} = .ok txn)
    (notRead : (Request.multi type requests).isReadRequest = false) (responses : List Response) :
    updateWatches env manager session (.multi type requests)
        { payload := StoreRequest.multiPayload type responses } =
      manager.triggerAll env
        (if responses.getLast?.map (·.error) = some .zok then
          txn.concreteRequests.flatMap SingleRequest.triggers
        else []) := by
  have isPayload : StoreRequest.multiPayload type responses = .multiWrite responses := by
    cases type with
    | read => cases notRead
    | unspecified | write => rfl
  have isRequests := StoreRequestMultiTxn.make_concreteRequests made
  subst isRequests
  simp only [updateWatches, notRead, Bool.false_eq_true, if_false, if_true,
    triggerWatches_eq_triggerAll, triggering, isPayload]
  split
  · rw [flatMap_map, flatMap_map]
    rfl
  · rfl

theorem updateWatches_multi {responses : List Response} (made : make requests {} = .ok txn)
    (notRead : (Request.multi type requests).isReadRequest = false)
    (watchable : (Request.multi type requests).watchable = true)
    (looped : loop platform zxid session time txn.operationType
      txn.concreteRequests state [] [] = .returned (after, responses)) :
    Delivers (dueOf ((multi txn).changes platform state zxid session time))
      (fun _ => False) manager
      (updateWatches env manager session (.multi type requests)
        { payload := multiPayload type responses }).1
      (watchEvents (updateWatches env manager session (.multi type requests)
        { payload := multiPayload type responses }).2) := by
  refine delivers_of_due env _ (updateWatches_multi_triggers made notRead responses) ?_
  intro watchType path
  rw [StoreRequest.changes]
  have uniform := make_uniform made
  have loops := loops_of_final (by rw [looped]; rfl)
  cases rolledBack : StoreRequestMultiTxn.rollsBack platform zxid session time txn.operationType
      txn.concreteRequests state with
  | true =>
    rw [if_neg (loops.lastFails rolledBack looped), if_pos rfl]
    rfl
  | false =>
    rw [if_neg Bool.false_ne_true]
    by_cases isWrite : txn.operationType = .write
    · rw [isWrite] at loops looped rolledBack
      have allWatchable : ∀ request ∈ txn.concreteRequests, request.watchable = true := by
        intro request isMember
        exact all_eq_true.mp watchable _ (make_members made isMember)
      rw [← loops.triggers_due rolledBack allWatchable]
      rcases loops.succeeds rolledBack looped (by decide) with ⟨allOk, lengths⟩
      cases isLast : responses.getLast? with
      | none =>
        rw [getLast?_eq_none_iff.mp isLast] at lengths
        have noRequests : txn.concreteRequests = [] := by
          apply length_eq_zero_iff.mp
          simpa using lengths.symm
        rw [noRequests]
        rfl
      | some last =>
        have lastOk := allOk last (mem_of_getLast? isLast)
        rw [Option.map_some, lastOk, if_pos rfl]
    · have reads : ∀ request ∈ txn.concreteRequests, request.multiType ≠ some .write := by
        intro request isMember
        rw [uniform request isMember]
        simpa using isWrite
      have legal : ∀ request ∈ txn.concreteRequests, request.multiType.isSome := by
        intro request isMember
        rw [uniform request isMember]
        rfl
      rcases @reads_change_nothing platform zxid session time state _ reads
        legal with ⟨noTriggers, noChanges⟩
      rw [noTriggers, noChanges, ite_self]
      rfl

end

end KeeperStore

theorem StoreState.process_payload {platform : Platform} {zxid session time : Int64}
    {state after : StoreState} {request : SingleRequest} {response : Response} {undo : Undo}
    (notRead : request.isReadRequest = false)
    (processed : state.process platform zxid session time request =
      .returned (after, response, undo)) (type : Event) (path : Bytes) :
    response.payload ≠ .watch type path := by
  intro isWatch
  cases request with
  | create | remove | set | setACL | check | auth =>
    simp only [process, create, remove, StoreState.set, StoreState.setACL, StoreState.check,
      StoreState.auth, Result.returned.injEq] at processed
    repeat' split at processed
    all_goals cases processed
    all_goals cases isWatch
  | sync path =>
    cases processed
    cases isWatch
  | close | newSession | updateSession => cases processed
  | heartbeat | setWatches | «exists» | get | list | getACL => cases notRead

theorem SingleRequest.makeResponse_payload (request : SingleRequest) (type : Event)
    (path : Bytes) : request.makeResponse.payload ≠ .watch type path := by
  intro isWatch
  cases request with
  | check request =>
    simp only [makeResponse] at isWatch
    split at isWatch <;> cases isWatch
  | list kind => cases kind <;> cases isWatch
  | _ => cases isWatch

namespace KeeperStore

variable {platform : Platform} {start store after : KeeperStore} {call : Call}
  {answers : List ResponseForSession} {response : Response}

theorem watchEvents_answer {zxid createTime : Int64}
    (noWatch : ∀ type path, response.payload ≠ .watch type path)
    (delivered : call.ignoreResponse = false) (events : List ResponseForSession) :
    watchEvents (call.setResponse (events ++ [call.answer zxid response createTime])) =
      watchEvents events := by
  have noEvent : (call.answer zxid response createTime).event = none := by
    rw [ResponseForSession.event]
    split
    next type path isWatch => exact absurd isWatch (noWatch type path)
    next => rfl
  rw [Call.setResponse, delivered, if_neg Bool.false_ne_true, watchEvents_append]
  simp [watchEvents, noEvent]

theorem isSingle_of_executes {request : SingleRequest}
    (executed : store.executes call = some (.single request)) :
    call.request.request = .single request := by
  rcases make_cases (make_of_executes executed) with
    ⟨_, isSingle, isOwn⟩ | ⟨_, _, _, _, isTxn, _⟩
  · cases isOwn
    exact isSingle
  · cases isTxn

variable {state : StoreState}

theorem updateWatches_delivers {storeRequest : StoreRequest} (served : call.Served)
    (executed : store.executes call = some storeRequest)
    (notRead : call.request.request.isReadRequest = false)
    (watchable : call.request.request.watchable = true)
    (notClose : call.request.request ≠ .single .close)
    (processed : storeRequest.process platform store.toStoreState store.zxid
      call.request.sessionId call.request.processTime call.request.request.operationType =
        .returned (state, response)) :
    Delivers (dueOf (store.changes platform call)) (fun _ => False) store.watchManager
        (updateWatches call.env store.watchManager call.request.sessionId call.request.request
          response).1
        (watchEvents (updateWatches call.env store.watchManager call.request.sessionId
          call.request.request response).2) ∧
      ∀ type path, response.payload ≠ .watch type path := by
  rw [(changes_of_executes served executed notClose).1]
  cases storeRequest with
  | single request =>
    have isSingle := isSingle_of_executes executed
    rw [isSingle] at notRead watchable ⊢
    simp only [process] at processed
    split at processed
    next undo processed' =>
      cases processed
      refine ⟨?_, StoreState.process_payload notRead processed'⟩
      rw [StoreRequest.changes, processed']
      exact updateWatches_single notRead watchable processed'
    all_goals cases processed
  | multi txn =>
    rcases isMulti_of_executes executed with ⟨type, requests, isMulti, made⟩
    rw [isMulti] at notRead watchable processed ⊢
    simp only [process] at processed
    split at processed
    next responses looped =>
      cases processed
      refine ⟨updateWatches_multi made notRead watchable looped, fun event path isWatch => ?_⟩
      cases type <;> cases isWatch
    all_goals cases processed

variable {sessionManager : SessionManager}

theorem refused_of_executes_none (served : call.Served)
    (isAlive : store.sessionManager.contains call.request.sessionId = true)
    (notExecuted : store.executes call = none)
    (responds : respond platform { store with sessionManager := sessionManager } call =
      .returned (state, response)) :
    response.error ≠ .zok ∧ ∀ type path, response.payload ≠ .watch type path := by
  have accepted : store.accepts call = true := by
    rw [accepts, served.noZxid]
    exact isAlive
  simp only [executes, accepted, served.checked, Bool.not_true, Bool.false_eq_true, if_false,
    if_true] at notExecuted
  simp only [respond, served.checked, if_true] at responds
  cases made : make call.request.request with
  | error exception =>
    simp only [made] at responds
    cases responds
  | ok storeRequest =>
    simp only [made] at responds notExecuted
    cases checked : storeRequest.checkAuth store.toStoreState call.request.sessionId with
    | error exception =>
      simp only [checked] at responds
      cases responds
    | ok authorised =>
      cases authorised with
      | true =>
        simp only [checked] at notExecuted
        cases notExecuted
      | false =>
        simp only [checked, Result.returned.injEq, Prod.mk.injEq] at responds
        rcases responds with ⟨_, rfl⟩
        refine ⟨by rintro ⟨⟩, fun type path isWatch => ?_⟩
        cases isRequest : call.request.request with
        | single request =>
          rw [isRequest] at isWatch
          exact request.makeResponse_payload type path isWatch
        | multi operationType requests =>
          rw [isRequest] at isWatch
          cases operationType <;> cases isWatch

theorem processStoreRequest_delivers (served : call.Served)
    (isAlive : store.sessionManager.contains call.request.sessionId = true)
    (delivered : call.ignoreResponse = false)
    (notRead : call.request.request.isReadRequest = false)
    (watchable : call.request.request.watchable = true)
    (notClose : call.request.request ≠ .single .close)
    (returns : processStoreRequest platform { store with sessionManager := sessionManager } call =
      .returned (after, answers)) :
    Delivers (dueOf (store.changes platform call)) (fun _ => False) store.watchManager
      after.watchManager (watchEvents answers) := by
  simp only [processStoreRequest] at returns
  cases responds : respond platform { store with sessionManager := sessionManager } call with
  | crashed | blocked | thrown =>
    simp only [responds] at returns
    cases returns
  | returned result =>
    rcases result with ⟨state, response⟩
    simp only [responds, Result.returned.injEq, Prod.mk.injEq] at returns
    rcases returns with ⟨rfl, rfl⟩
    cases executed : store.executes call with
    | some storeRequest =>
      have processed := respond_of_executes executed platform store.zxid sessionManager
      rw [responds] at processed
      rcases updateWatches_delivers served executed notRead watchable notClose
        processed.symm with ⟨delivers, noWatch⟩
      rw [watchEvents_answer noWatch delivered]
      exact delivers
    | none =>
      rw [(changes_of_executes_none executed notClose).1]
      rcases refused_of_executes_none served isAlive executed responds with ⟨fails, noWatch⟩
      rw [watchEvents_answer noWatch delivered]
      dsimp only
      rw [updateWatches_of_fails notRead fails]
      exact delivers_nothing store.watchManager

end KeeperStore

section

variable {session : Int64} {due : WatchType → Bytes → Option Event} {before after : WatchManager}
  {events : List (Int64 × Event × Bytes)}

theorem WatchManager.Delivers.mono {leaving more : Int64 → Prop}
    (delivers : Delivers due leaving before after events)
    (leads : ∀ session, leaving session → more session) :
    Delivers due more before after events where
  sent := delivers.sent
  unregistered := delivers.unregistered
  kept type path session held notDue :=
    (delivers.kept type path session held notDue).imp_right (leads session)

theorem WatchManager.Delivers.clean {env : Environment}
    (delivers : Delivers due (fun _ => False) before after events) :
    Delivers due (· = session) before (after.cleanDeadWatches env session) events where
  sent := delivers.sent
  unregistered type path other isMember :=
    delivers.unregistered type path other (mem_of_mem_cleanDeadWatches isMember)
  kept type path other held notDue :=
    or_iff_not_imp_right.mpr fun isOther => mem_cleanDeadWatches isOther
      ((delivers.kept type path other held notDue).resolve_right id)

end

namespace KeeperStore

variable {platform : Platform} {start store after : KeeperStore} {call : Call}
  {answers : List ResponseForSession}

theorem ephemeralPaths_flat (sound : OwnershipSound store.toStoreState) (session : Int64) :
    ∀ path ∈ ephemeralsOf store.ephemerals session,
      getParentPath path ∉ ephemeralsOf store.ephemerals session := by
  intro path isOwn isParent
  rcases sound.indexed.owned isOwn with ⟨node, found, _⟩
  rcases sound.indexed.owned isParent with ⟨parent, parentFound, isEphemeral, _⟩
  rw [sound.persistent found parentFound] at isEphemeral
  cases isEphemeral

theorem cleanEphemeralNodes_delivers (sound : OwnershipSound store.toStoreState)
    (env : Environment) (session : Int64) :
    Delivers (dueOf [.expired (ephemeralsOf store.ephemerals session)]) (fun _ => False)
      store.watchManager (store.cleanEphemeralNodes env session).1.watchManager
      (watchEvents (store.cleanEphemeralNodes env session).2) := by
  have flat := ephemeralPaths_flat sound session
  rw [cleanEphemeralNodes]
  cases found : store.ephemerals.lookup session with
  | none =>
    have noPaths : ephemeralsOf store.ephemerals session = ∅ := by
      rw [ephemeralsOf, found]
      rfl
    rw [noPaths]
    refine @delivers_of_due store.watchManager env [] _ (_, []) rfl fun type path => ?_
    cases type <;> simp [dueOf_singleton, Change.due]
  | some paths =>
    have isPaths : ephemeralsOf store.ephemerals session = paths := by
      rw [ephemeralsOf, found]
      rfl
    rw [isPaths] at flat ⊢
    refine delivers_of_due env
      ((env.ephemeralPaths.list session paths).flatMap (eventTriggers · .deleted))
      (foldl_processEvent_eq_triggerAll env _ _ []) fun type path => ?_
    rw [dueOf_singleton]
    exact due_expired (fun _ => env.ephemeralPaths.mem_list) flat type path

theorem closeSession_delivers (sound : OwnershipSound store.toStoreState)
    (delivered : call.ignoreResponse = false)
    (returns : store.closeSession call = .returned (after, answers)) :
    Delivers (dueOf [.expired (ephemeralsOf store.ephemerals call.request.sessionId)])
      (· = call.request.sessionId) store.watchManager after.watchManager (watchEvents answers) := by
  have delivers := cleanEphemeralNodes_delivers sound call.env call.request.sessionId
  simp only [closeSession] at returns
  split at returns
  · cases returns
  · cases returns
    rw [watchEvents_answer (fun _ _ isWatch => by cases isWatch) delivered]
    exact delivers.clean

theorem delivers_of_executes_none (notExecuted : store.executes call = none)
    (notClose : call.request.request ≠ .single .close)
    (sameWatches : after.watchManager = store.watchManager) (noEvents : watchEvents answers = []) :
    Delivers (dueOf (store.changes platform call)) (fun _ => False) store.watchManager
      after.watchManager (watchEvents answers) := by
  rw [(changes_of_executes_none notExecuted notClose).1, sameWatches, noEvents]
  exact delivers_nothing store.watchManager

theorem dispatch_delivers (served : call.Served) (delivered : call.ignoreResponse = false)
    (notRead : call.request.request.isReadRequest = false)
    (watchable : call.request.request.watchable = true)
    (notClose : call.request.request ≠ .single .close)
    (returns : store.dispatch platform call = .returned (after, answers)) :
    Delivers (dueOf (store.changes platform call)) (fun _ => False) store.watchManager
      after.watchManager (watchEvents answers) := by
  simp only [dispatch] at returns
  split at returns
  next isClose => exact absurd isClose notClose
  next request isOpening =>
    have notExecuted : store.executes call = none := by rw [executes, isOpening]; rfl
    simp only [newSession] at returns
    split at returns
    · cases returns
    · cases returns
      exact delivers_of_executes_none notExecuted notClose rfl
        (watchEvents_answer (fun _ _ isWatch => by cases isWatch) delivered [])
  next request isUpdate =>
    have notExecuted : store.executes call = none := by rw [executes, isUpdate]; rfl
    simp only [updateSession] at returns
    split at returns
    · cases returns
    · cases returns
      exact delivers_of_executes_none notExecuted notClose rfl
        (watchEvents_answer (fun _ _ isWatch => by cases isWatch) delivered [])
  all_goals
    split at returns
    next isDead =>
      cases returns
      have notAlive : store.sessionManager.contains call.request.sessionId = false := by
        simpa [served.noZxid] using isDead
      exact delivers_of_executes_none (executes_of_dead served notAlive) notClose rfl rfl
    next isAlive =>
      have alive : store.sessionManager.contains call.request.sessionId = true := by
        simpa [served.noZxid] using isAlive
      simp only [processSessionRequest] at returns
      split at returns
      · cases returns
      · split at returns
        next isHeartbeat =>
          rw [isHeartbeat] at notRead
          cases notRead
        next isSetWatches =>
          rw [isSetWatches] at notRead
          cases notRead
        all_goals
          exact processStoreRequest_delivers served alive delivered notRead watchable notClose
            returns

theorem next_traced (sound : OwnershipSound store.toStoreState) (served : call.Served)
    (moves : store.next platform call = some after) :
    Traced store.dataTree (store.changes platform call) after.dataTree :=
  (next_treeStep served moves).traced sound

/--
The changes of a request lead from the tree before it to the tree after it. The watches that are
due by them are delivered, and no others; when a session is closed its own watches may be dropped.
-/
theorem watches_follow_changes (started : Started platform start)
    (reached : ReachableBy (next platform) (fun _ _ => True) start store) (served : call.Served)
    (delivered : call.ignoreResponse = false)
    (notRead : call.request.request.isReadRequest = false)
    (watchable : call.request.request.watchable = true)
    (returns : store.processRequest platform call = .returned (after, answers)) :
    Traced store.dataTree (store.changes platform call) after.dataTree ∧
      Delivers (dueOf (store.changes platform call))
        (fun session => call.request.request = .single .close ∧ session = call.request.sessionId)
        store.watchManager after.watchManager (watchEvents answers) := by
  have sound := reachable_ownershipSound started reached
  refine ⟨next_traced sound served (by rw [next, returns]; rfl), ?_⟩
  have dispatched : store.dispatch platform call = .returned (after, answers) := by
    rwa [processRequest, served.noZxid] at returns
  by_cases isClose : call.request.request = .single .close
  · have isChange : store.changes platform call =
        [.expired (ephemeralsOf store.ephemerals call.request.sessionId)] := by
      rw [changes, isClose]
    have closes : store.closeSession call = .returned (after, answers) := by
      rwa [dispatch, isClose] at dispatched
    rw [isChange]
    exact (closeSession_delivers sound delivered closes).mono fun _ same => ⟨isClose, same⟩
  · exact (dispatch_delivers served delivered notRead watchable isClose dispatched).mono
      fun _ => False.elim

instance {result : Result KeeperStore Answered}
    {property : KeeperStore → List ResponseForSession → Prop}
    [∀ after answers, Decidable (property after answers)] :
    Decidable (∃ after answers, result = .returned (after, answers) ∧ property after answers) :=
  match result with
  | .returned (after, answers) => decidable_of_iff (property after answers) (by simp)
  | .thrown .. | .crashed | .blocked => .isFalse (by simp)

def watchingRun : List Call :=
  [.sampleSession, .sample 1 (.single (.exists (ascii "/a0000000000") true)),
    .sample 1 (.single (.exists (ascii "/b") true)),
    .sample 1 (.single (.exists (ascii "/c") true)),
    .sample 1 (.single (.list .full (ascii "/") true))]

def createCall : Call := .sample 1 (.single (.create { path := ascii "/c" }))

/-- The watch for the new node and the one for the children of its parent are delivered. -/
theorem watches_follow_changes_createCall :
    ∃ store after answers, ReachableBy (next .sample) (fun _ _ => True) sample store ∧
      store.processRequest .sample createCall = .returned (after, answers) ∧
      (watchEvents answers).count (1, .created, ascii "/c") = 1 ∧
      (watchEvents answers).count (1, .child, ascii "/") = 1 ∧
      1 ∉ after.watchManager.watchers .data (ascii "/c") ∧
      1 ∈ after.watchManager.watchers .data (ascii "/b") := by
  simp only [exists_and_left]
  refine exists_reached_of (fun store => ∃ after answers,
      store.processRequest .sample createCall = .returned (after, answers) ∧
      1 ∈ store.watchManager.watchers .data (ascii "/c") ∧
      1 ∈ store.watchManager.watchers .data (ascii "/b") ∧
      1 ∉ store.watchManager.watchers .list (ascii "/c") ∧
      1 ∉ store.watchManager.watchers .data (ascii "/") ∧
      1 ∈ store.watchManager.watchers .list (ascii "/") ∧
      dueOf (store.changes .sample createCall) .data (ascii "/c") = some .created ∧
      dueOf (store.changes .sample createCall) .data (ascii "/b") = none ∧
      dueOf (store.changes .sample createCall) .list (ascii "/") = some .child)
    watchingRun (by decide +kernel) ?_
  rintro store reached ⟨after, answers, returns, held, heldOther, notList, notData, heldList, due,
    notDue, dueList⟩
  have delivers := (watches_follow_changes started_sample reached ⟨rfl, rfl⟩ rfl rfl rfl returns).2
  refine ⟨after, answers, returns, ?_, ?_, ?_, ?_⟩
  · rw [delivers.sent, if_pos ⟨held, due⟩, if_neg fun held => notList held.1]
  · rw [delivers.sent, if_neg fun held => notData held.1, if_pos ⟨heldList, dueList⟩]
  · intro isMember
    have stillHeld := delivers.unregistered _ _ _ isMember
    rw [due] at stillHeld
    cases stillHeld.2
  · rcases delivers.kept .data (ascii "/b") 1 heldOther notDue with stillHeld | ⟨isClose, _⟩
    · exact stillHeld
    · cases isClose

def sequentialCall : Call :=
  .sample 1 (.single (.create { path := ascii "/a", isSequential := true }))

def createIfNotExistsCall : Call :=
  .sample 1 (.single (.create { path := ascii "/b", notExists := true }))

/-- A call adds a node that the first session waits for, and nobody gets to know. -/
def Unnoticed (store : KeeperStore) (call : Call) (path : Bytes) : Prop :=
  1 ∈ store.watchManager.watchers .data path ∧ path ∉ store.dataTree ∧
    ∃ after answers, store.processRequest .sample call = .returned (after, answers) ∧
      path ∈ after.dataTree ∧ path ∉ (watchEvents answers).map (·.2.2) ∧
      1 ∈ after.watchManager.watchers .data path

instance (store : KeeperStore) (call : Call) (path : Bytes) :
    Decidable (store.Unnoticed call path) :=
  inferInstanceAs (Decidable (_ ∧ _ ∧ _))

/-- Neither a sequential Create nor a CreateIfNotExists triggers the watches on the new node. -/
theorem newNodes_unnoticed :
    ∃ store, ReachableBy (next .sample) (fun _ _ => True) sample store ∧
      store.Unnoticed sequentialCall (ascii "/a0000000000") ∧
      store.Unnoticed createIfNotExistsCall (ascii "/b") := by
  exact exists_reached watchingRun (by decide +kernel)

end KeeperStore

end RaftKeeper
