import RaftKeeper.Common.Platform
import RaftKeeper.ZooKeeper.Types

/-!
# Watches

`WatchManager` keeps for every path the sessions with a data watch and with a list watch, and for
every session the watched paths with a bit mask of both kinds. Every public operation takes
`watch_mutex`, which is not recursive. `processRequestSetWatch` holds it when it calls
`processWatches`, so this inner call never returns; its result is `none` here.
-/

namespace RaftKeeper

open List

/-- A list watch, or a watch on the data and the existence of a node. -/
inductive WatchType
  | list
  | data
deriving DecidableEq

/-- The bit that stands for a kind of watch in a mask. -/
def WatchType.bit : WatchType → UInt8
  | list => 1
  | data => 2

/-- The watches by path, and by session with a bit for each type. -/
structure WatchManager where
  sessionsAndWatchers : Dict Int64 (Dict Bytes UInt8) := ∅
  watches : Dict Bytes (Finset Int64) := ∅
  listWatches : Dict Bytes (Finset Int64) := ∅

namespace WatchManager

def table (manager : WatchManager) : WatchType → Dict Bytes (Finset Int64)
  | .data => manager.watches
  | .list => manager.listWatches

def setTable (manager : WatchManager) (type : WatchType) (value : Dict Bytes (Finset Int64)) :
    WatchManager :=
  match type with
  | .data => { manager with watches := value }
  | .list => { manager with listWatches := value }

def mask (manager : WatchManager) (session : Int64) (path : Bytes) : UInt8 :=
  (((manager.sessionsAndWatchers.lookup session).getD ∅).lookup path).getD 0

def setMask (manager : WatchManager) (session : Int64) (path : Bytes) (value : UInt8) :
    WatchManager :=
  { manager with
    sessionsAndWatchers := manager.sessionsAndWatchers.insert session
      (((manager.sessionsAndWatchers.lookup session).getD ∅).insert path value) }

def eraseMask (manager : WatchManager) (session : Int64) (path : Bytes) : WatchManager :=
  { manager with
    sessionsAndWatchers := manager.sessionsAndWatchers.insert session
      (((manager.sessionsAndWatchers.lookup session).getD ∅).erase path) }

/-- Add a watch of one kind to both indexes. -/
def addWatch (manager : WatchManager) (type : WatchType) (path : Bytes) (session : Int64) :
    WatchManager :=
  let sessions := insert session (((manager.table type).lookup path).getD ∅)
  (manager.setTable type ((manager.table type).insert path sessions)).setMask session path
    (manager.mask session path ||| type.bit)

def registerWatches (manager : WatchManager) (path : Bytes) (session : Int64) (opnum : OpNum) :
    WatchManager :=
  let type :=
    if opnum = .list ∨ opnum = .simpleList ∨ opnum = .filteredList then WatchType.list
    else WatchType.data
  manager.addWatch type path session

/-- Flip the bit of one watch of a session and forget the path when no bit is left. -/
def unregister (type : WatchType) (path : Bytes) (manager : WatchManager) (session : Int64) :
    WatchManager :=
  let value := manager.mask session path ^^^ type.bit
  if value = 0 then manager.eraseMask session path else manager.setMask session path value

def watchResponse (event : Event) (path : Bytes) (session : Int64) : ResponseForSession :=
  { sessionId := session, xid := watchXid, zxid := -1,
    response := { payload := .watch event path } }

/-- Send an event to every session with a watch of this kind on the path, and drop these watches. -/
def trigger (env : Environment) (manager : WatchManager) (type : WatchType) (path : Bytes)
    (event : Event) : WatchManager × List ResponseForSession :=
  match (manager.table type).lookup path with
  | none => (manager, [])
  | some sessions =>
    let watchers := env.watchers.list path sessions
    let unregistered := watchers.foldl (unregister type path) manager
    (unregistered.setTable type ((unregistered.table type).erase path),
      watchers.map (watchResponse event path))

def processEvent (env : Environment) (manager : WatchManager) (path : Bytes) (event : Event) :
    WatchManager × List ResponseForSession :=
  let parentPath := getParentPath path
  let pathsToCheckForListWatches :=
    match event with
    | .created => [parentPath]
    | .deleted => [path, parentPath]
    | .changed | .child => []
  let checkListWatches (state : WatchManager × List ResponseForSession) (pathToCheck : Bytes) :=
    let type := if pathToCheck = parentPath then Event.child else Event.deleted
    let (after, responses) := trigger env state.1 .list pathToCheck type
    (after, state.2 ++ responses)
  pathsToCheckForListWatches.foldl checkListWatches (trigger env manager .data path event)

def processWatches (env : Environment) (manager : WatchManager) (path : Bytes) (opnum : OpNum) :
    WatchManager × List ResponseForSession :=
  match opnum with
  | .create => manager.processEvent env path .created
  | .remove => manager.processEvent env path .deleted
  | .set => manager.processEvent env path .changed
  | _ => (manager, [])

/-- A watch event for some session. -/
def IsEvent (response : ResponseForSession) : Prop :=
  ∃ event path session, response = watchResponse event path session

variable {manager : WatchManager} {path : Bytes} {env : Environment} {response : ResponseForSession}
  {event : Event}

theorem trigger_isEvent {type : WatchType}
    (isMember : response ∈ (trigger env manager type path event).2) : IsEvent response := by
  unfold trigger at isMember
  split at isMember
  · simp at isMember
  · rcases mem_map.mp isMember with ⟨session, _, rfl⟩
    exact ⟨event, path, session, rfl⟩

theorem processEvent_isEvent (isMember : response ∈ (manager.processEvent env path event).2) :
    IsEvent response := by
  unfold processEvent at isMember
  cases event with
  | created =>
    simp only [foldl_cons, foldl_nil, mem_append] at isMember
    exact isMember.elim trigger_isEvent trigger_isEvent
  | deleted =>
    simp only [foldl_cons, foldl_nil, mem_append] at isMember
    exact isMember.elim (fun earlier => earlier.elim trigger_isEvent trigger_isEvent)
      trigger_isEvent
  | changed | child => exact trigger_isEvent isMember

variable {opnum : OpNum}

theorem processWatches_isEvent (isMember : response ∈ (manager.processWatches env path opnum).2) :
    IsEvent response := by
  unfold processWatches at isMember
  split at isMember
  · exact processEvent_isEvent isMember
  · exact processEvent_isEvent isMember
  · exact processEvent_isEvent isMember
  · simp at isMember

theorem processWatches_zok (isMember : response ∈ (manager.processWatches env path opnum).2) :
    response.response.error = .zok := by
  rcases processWatches_isEvent isMember with ⟨_, _, _, rfl⟩
  rfl

/-- The body of `processRequestSetWatch`; `fire` is its call of `processWatches`. -/
def processRequestSetWatchWith
    (fire : WatchManager → Bytes → Event → Option (WatchManager × List ResponseForSession))
    (manager : WatchManager) (session : Int64) (request : SetWatchesRequest)
    (watchNodesInfo : Bytes → Option (Int64 × Int64)) :
    Option (WatchManager × List ResponseForSession) :=
  let visit (type : WatchType) (missed : Bytes → Option Event)
      (state : Option (WatchManager × List ResponseForSession)) (path : Bytes) :=
    state.bind fun (current, responses) =>
      let registered := current.addWatch type path session
      match missed path with
      | none => some (registered, responses)
      | some event =>
        (fire registered path event).map fun (after, fired) => (after, responses ++ fired)
  let missedData (path : Bytes) :=
    match watchNodesInfo path with
    | none => some Event.deleted
    | some (mzxid, _) => if mzxid > request.relativeZxid then some .changed else none
  let missedExist (path : Bytes) := (watchNodesInfo path).map fun _ => Event.created
  let missedList (path : Bytes) :=
    match watchNodesInfo path with
    | none => some Event.deleted
    | some (_, pzxid) => if pzxid > request.relativeZxid then some .child else none
  let afterData := request.dataWatches.foldl (visit .data missedData) (some (manager, []))
  let afterExist := request.existWatches.foldl (visit .data missedExist) afterData
  request.listWatches.foldl (visit .list missedList) afterExist

def processRequestSetWatch (manager : WatchManager) (session : Int64)
    (request : SetWatchesRequest) (watchNodesInfo : Bytes → Option (Int64 × Int64)) :
    Option (WatchManager × List ResponseForSession) :=
  -- `watch_mutex` is already held: the inner call waits for it forever
  processRequestSetWatchWith (fun _ _ _ => none) manager session request watchNodesInfo

def dropWatcher (session : Int64) (table : Dict Bytes (Finset Int64)) (path : Bytes) :
    Dict Bytes (Finset Int64) :=
  match table.lookup path with
  | none => table
  | some sessions =>
    if sessions.erase session = ∅ then table.erase path
    else table.insert path (sessions.erase session)

def cleanDeadWatches (env : Environment) (manager : WatchManager) (session : Int64) :
    WatchManager :=
  match manager.sessionsAndWatchers.lookup session with
  | none => manager
  | some watched =>
    let paths := env.watchedPaths.list session watched.keys
    { sessionsAndWatchers := manager.sessionsAndWatchers.erase session
      watches := paths.foldl (dropWatcher session) manager.watches
      listWatches := paths.foldl (dropWatcher session) manager.listWatches }

end WatchManager

end RaftKeeper
