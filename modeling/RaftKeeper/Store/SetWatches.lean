import RaftKeeper.Lib.Run
import RaftKeeper.Store.WatchTriggers

/-!
# SetWatches

A client that reconnects sends the watches it held and the last zxid it has seen, and is to get the
events that it has missed. They are fired by `processWatches`, which takes `watch_mutex` although
the caller holds it: as soon as one event was missed, the thread waits for itself.
-/

namespace RaftKeeper

open List

namespace WatchManager

/-- A path of a SetWatches request, and the event that the client has missed there. -/
structure Visit where
  type : WatchType
  path : Bytes
  missed : Option Event

/-- The paths in the order in which `processRequestSetWatch` visits them. -/
def visits (request : SetWatchesRequest) (watchNodesInfo : Bytes → Option (Int64 × Int64)) :
    List Visit :=
  request.dataWatches.map (fun path =>
    { type := .data
      path := path
      missed := match watchNodesInfo path with
        | none => some .deleted
        | some (mzxid, _) => if mzxid > request.relativeZxid then some .changed else none }) ++
  request.existWatches.map (fun path =>
    { type := .data
      path := path
      missed := (watchNodesInfo path).map fun _ => .created }) ++
  request.listWatches.map fun path =>
    { type := .list
      path := path
      missed := match watchNodesInfo path with
        | none => some .deleted
        | some (_, pzxid) => if pzxid > request.relativeZxid then some .child else none }

def restore (session : Int64) (manager : WatchManager) (visit : Visit) : WatchManager :=
  manager.addWatch visit.type visit.path session

/-- Register one watch again, and fire the event that was missed. -/
def visitPath
    (fire : WatchManager → Bytes → Event → Option (WatchManager × List ResponseForSession))
    (session : Int64) (state : Option (WatchManager × List ResponseForSession)) (visit : Visit) :
    Option (WatchManager × List ResponseForSession) :=
  state.bind fun (current, responses) =>
    match visit.missed with
    | none => some (current.restore session visit, responses)
    | some event =>
      (fire (current.restore session visit) visit.path event).map fun (after, fired) =>
        (after, responses ++ fired)

variable {manager : WatchManager} {session : Int64} {request : SetWatchesRequest}
  {watchNodesInfo : Bytes → Option (Int64 × Int64)}

theorem processRequestSetWatchWith_eq_foldl
    (fire : WatchManager → Bytes → Event → Option (WatchManager × List ResponseForSession)) :
    processRequestSetWatchWith fire manager session request watchNodesInfo =
      (visits request watchNodesInfo).foldl (visitPath fire session) (some (manager, [])) := by
  simp only [processRequestSetWatchWith, visits, foldl_append, foldl_map]
  rfl

theorem processRequestSetWatch_eq :
    manager.processRequestSetWatch session request watchNodesInfo =
      if ∀ visit ∈ visits request watchNodesInfo, visit.missed = none then
        some ((visits request watchNodesInfo).foldl (restore session) manager, [])
      else none := by
  rw [processRequestSetWatch, processRequestSetWatchWith_eq_foldl]
  generalize visits request watchNodesInfo = visits
  induction visits generalizing manager with
  | nil => simp
  | cons visit rest ih =>
    rw [foldl_cons, foldl_cons]
    cases missed : visit.missed with
    | none => simpa [visitPath, missed] using ih
    | some event =>
      have blocked : ∀ visits : List Visit,
          visits.foldl (visitPath (fun _ _ _ => none) session) none = none := by
        intro visits
        induction visits with
        | nil => rfl
        | cons _ _ ih => exact ih
      simp [visitPath, missed, blocked]

/-- The calls of the watch manager. -/
inductive Action
  | registerWatches (path : Bytes) (session : Int64) (opnum : OpNum)
  | processWatches (path : Bytes) (opnum : OpNum)
  | processEvent (path : Bytes) (event : Event)
  | processRequestSetWatch (session : Int64) (request : SetWatchesRequest)
      (watchNodesInfo : Bytes → Option (Int64 × Int64))
  | cleanDeadWatches (session : Int64)
  /-- The counters and the dumps, which read the tables. -/
  | read
  | reset

/-- A scope with a `lock_guard`; `none` is a thread that waits for a mutex it holds. -/
def withLock {α : Type} (recursive held : Bool) (body : Bool → Option α) : Option α :=
  if held && !recursive then none else body true

/-- The operation with its locks; `watch_mutex` is not recursive. -/
def Action.run (recursive : Bool) (env : Environment) (held : Bool) (manager : WatchManager) :
    Action → Option (WatchManager × List ResponseForSession)
  | registerWatches path session opnum =>
    withLock recursive held fun _ => some (manager.registerWatches path session opnum, [])
  | processWatches path opnum =>
    match opnum with
    | .create | .remove | .set =>
      withLock recursive held fun _ => some (manager.processWatches env path opnum)
    | _ => some (manager, [])
  | processEvent path event =>
    withLock recursive held fun _ => some (manager.processEvent env path event)
  | processRequestSetWatch session request watchNodesInfo =>
    withLock recursive held fun held =>
      processRequestSetWatchWith
        (fun current path event =>
          withLock recursive held fun _ => some (current.processEvent env path event))
        manager session request watchNodesInfo
  | cleanDeadWatches session =>
    withLock recursive held fun _ => some (manager.cleanDeadWatches env session, [])
  | read => withLock recursive held fun _ => some (manager, [])
  | reset => withLock recursive held fun _ => some ({}, [])

/-- The paths that an operation visits with the mutex held. -/
def Action.visited : Action → List Visit
  | processRequestSetWatch _ request watchNodesInfo => visits request watchNodesInfo
  | _ => []

/-- A call gets through its locks exactly if it is not a SetWatches with a missed event. -/
theorem Action.run_isSome_iff (env : Environment) (manager : WatchManager) (action : Action) :
    (action.run false env false manager).isSome ↔
      ∀ visit ∈ action.visited, visit.missed = none := by
  cases action with
  | processRequestSetWatch session request watchNodesInfo =>
    have isCode : run false env false manager
        (.processRequestSetWatch session request watchNodesInfo) =
          manager.processRequestSetWatch session request watchNodesInfo := rfl
    rw [isCode, processRequestSetWatch_eq, visited]
    split
    next silent => simpa using silent
    next fires => simpa using fires
  | processWatches path opnum => cases opnum <;> simp [run, withLock, visited]
  | _ => simp [run, withLock, visited]

/-- A client that held a data watch on a node that is gone now. -/
theorem Action.run_blocked :
    run false .sorted false {} (.processRequestSetWatch 1
      { relativeZxid := 0, dataWatches := [ascii "/x"], existWatches := [], listWatches := [] }
      fun _ => none) = none := rfl

end WatchManager

namespace KeeperStore

open WatchManager

/-- The watches of a request, and what has happened to the nodes since the client has left. -/
def missed (store : KeeperStore) (request : SetWatchesRequest) : List Visit :=
  visits request fun path =>
    (store.dataTree.lookup path).map fun node => (node.stat.mzxid, node.stat.pzxid)

/--
The session gets the events that it has missed and keeps its other watches, and nothing
happens to the watches of other sessions.
-/
structure Restores (session : Int64) (visits : List Visit) (before after : WatchManager)
    (events : List (Int64 × Event × Bytes)) : Prop where
  sent : ∀ event, event ∈ events ↔
    ∃ visit ∈ visits, ∃ type, visit.missed = some type ∧ event = (session, type, visit.path)
  kept : ∀ visit ∈ visits, visit.missed = none → session ∈ after.watchers visit.type visit.path
  others : ∀ other, other ≠ session → ∀ type path,
    other ∈ after.watchers type path ↔ other ∈ before.watchers type path

end KeeperStore

namespace WatchManager

variable {manager : WatchManager} {session : Int64}

theorem table_addWatch (type other : WatchType) (path : Bytes) :
    (manager.addWatch type path session).table other =
      if other = type then
        (manager.table type).insert path (insert session (manager.watchers type path))
      else manager.table other := by
  cases type <;> cases other <;> rfl

theorem watchers_addWatch (type other : WatchType) (path otherPath : Bytes) :
    (manager.addWatch type path session).watchers other otherPath =
      if other = type ∧ otherPath = path then insert session (manager.watchers type path)
      else manager.watchers other otherPath := by
  rw [watchers, table_addWatch]
  by_cases sameType : other = type
  · rw [if_pos sameType, Finmap.lookup_insert_ite]
    by_cases samePath : otherPath = path
    · simp [sameType, samePath]
    · simp [sameType, samePath, watchers]
  · simp [sameType, watchers]

theorem mem_watchers_foldl_restore (visits : List Visit) {other : Int64} {type : WatchType}
    {path : Bytes} :
    other ∈ (visits.foldl (restore session) manager).watchers type path ↔
      other ∈ manager.watchers type path ∨
        other = session ∧ ∃ visit ∈ visits, visit.type = type ∧ visit.path = path := by
  induction visits generalizing manager with
  | nil => simp
  | cons visit rest ih =>
    rw [foldl_cons, ih, restore, watchers_addWatch]
    by_cases isHere : type = visit.type ∧ path = visit.path
    · rcases isHere with ⟨rfl, rfl⟩
      simp
      tauto
    · have elsewhere : ¬(visit.type = type ∧ visit.path = path) :=
        fun same => isHere ⟨same.1.symm, same.2.symm⟩
      simp [isHere, elsewhere]

end WatchManager

namespace KeeperStore

open WatchManager

variable {store : KeeperStore} {call : Call} {request : SetWatchesRequest}

theorem setWatches_eq : store.setWatches call request =
    if ∀ visit ∈ visits request (store.watchNodesInfo request), visit.missed = none then
      .returned
        ({ store with
            watchManager := (visits request (store.watchNodesInfo request)).foldl
              (restore call.request.sessionId) store.watchManager },
          call.setResponse [call.answer store.zxid { payload := .setWatches }])
    else .blocked := by
  unfold setWatches
  rw [processRequestSetWatch_eq]
  split
  next isNone =>
    split at isNone
    · cases isNone
    next fires => exact (if_neg fires).symm
  next isSome =>
    split at isSome
    next silent =>
      cases isSome
      exact (if_pos silent).symm
    · cases isSome

/-- SetWatches does its task exactly if there is no event to send. -/
theorem setWatches_restores_iff :
    (∃ after answers, store.setWatches call request = .returned (after, answers) ∧
      Restores call.request.sessionId (store.missed request) store.watchManager
        after.watchManager (watchEvents answers)) ↔
      (∀ visit ∈ store.missed request, visit.missed = none) ∧
        ∀ path ∈ request.listWatches, path ∈ request.dataWatches := by
  rw [setWatches_eq]
  have noEvents : watchEvents (call.setResponse
      [call.answer store.zxid { payload := .setWatches }]) = [] := by
    unfold Call.setResponse
    split <;> rfl
  constructor
  · rintro ⟨after, answers, returns, restores⟩
    split at returns
    next silent =>
      cases returns
      rw [noEvents] at restores
      have unmissed : ∀ visit ∈ store.missed request, visit.missed = none := by
        intro visit isVisit
        by_contra isMissed
        rcases Option.ne_none_iff_exists'.mp isMissed with ⟨type, isType⟩
        have due := (restores.sent _).mpr ⟨visit, isVisit, type, isType, rfl⟩
        cases due
      refine ⟨unmissed, fun path isList => ?_⟩
      by_contra notData
      have visited : (⟨.list, path, some .deleted⟩ : Visit) ∈
          visits request (store.watchNodesInfo request) := by
        refine mem_append_right _ (mem_map.mpr ⟨path, isList, ?_⟩)
        simp [watchNodesInfo, notData]
      cases silent _ visited
    next => cases returns
  · rintro ⟨unmissed, listed⟩
    have sameVisits : visits request (store.watchNodesInfo request) = store.missed request := by
      rw [missed, visits, visits]
      refine congrArg₂ _ (congrArg₂ _ ?_ ?_) ?_
      · refine map_congr_left fun path isData => ?_
        rw [watchNodesInfo, if_pos isData]
      · -- the code looks up a path only if it is that of a data watch
        refine map_congr_left fun path isExist => ?_
        have absent : store.dataTree.lookup path = none := by
          simpa using unmissed _ (mem_append_left _
            (mem_append_right _ (mem_map_of_mem isExist)))
        rw [watchNodesInfo, absent, Option.map_none, ite_self]
      · refine map_congr_left fun path isList => ?_
        rw [watchNodesInfo, if_pos (listed path isList)]
    rw [sameVisits, if_pos unmissed]
    refine ⟨_, _, rfl, ⟨fun event => ?_, fun visit isVisit _ => ?_, fun other isOther type path =>
      ?_⟩⟩
    · rw [noEvents]
      constructor
      · nofun
      · rintro ⟨visit, isVisit, type, isMissed, _⟩
        rw [unmissed visit isVisit] at isMissed
        cases isMissed
    · exact (mem_watchers_foldl_restore _).mpr (.inr ⟨rfl, visit, isVisit, rfl, rfl⟩)
    · rw [mem_watchers_foldl_restore]
      simp [isOther]

/-- A watched node is gone when its session comes back, and the server stands still. -/
theorem setWatches_blocks :
    ∃ store, runFrom (next .sample) sample [.sampleSession] = some store ∧
      store.processRequest .sample (.sample 1 (.single (.setWatches
        { relativeZxid := 0, dataWatches := [ascii "/x"], existWatches := [],
          listWatches := [] }))) = .blocked :=
  ⟨_, rfl, rfl⟩

end KeeperStore

end RaftKeeper
