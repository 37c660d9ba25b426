import RaftKeeper.Store.ProcessRequest

/-!
# Triggering watches

`Delivers` says what it means to deliver watches: each session that holds a watch which is due gets
one event, these watches are gone, and no others are touched. A list of triggers delivers the first
event that it has for each watch.
-/

namespace RaftKeeper

open List

/-- The session, the type and the path of a watch event. -/
def ResponseForSession.event (answer : ResponseForSession) : Option (Int64 × Event × Bytes) :=
  match answer.response.payload with
  | .watch type path => some (answer.sessionId, type, path)
  | _ => none

/-- The watch events among the responses. -/
def watchEvents (answers : List ResponseForSession) : List (Int64 × Event × Bytes) :=
  answers.filterMap ResponseForSession.event

theorem watchEvents_append (first second : List ResponseForSession) :
    watchEvents (first ++ second) = watchEvents first ++ watchEvents second :=
  filterMap_append

namespace WatchManager

/-- The sessions that hold a watch of this kind on the path. -/
def watchers (manager : WatchManager) (type : WatchType) (path : Bytes) : Finset Int64 :=
  ((manager.table type).lookup path).getD ∅

/--
The watches that are due are delivered. `due` gives the event that a watch waits for, if it
has happened; the watches of a session that is `leaving` may be dropped as well.
-/
structure Delivers (due : WatchType → Bytes → Option Event) (leaving : Int64 → Prop)
    (before after : WatchManager) (events : List (Int64 × Event × Bytes)) : Prop where
  /-- Every session gets one event for each watch that is due, and no other. -/
  sent : ∀ session event path, events.count (session, event, path) =
    (if session ∈ before.watchers .data path ∧ due .data path = some event then 1 else 0) +
      (if session ∈ before.watchers .list path ∧ due .list path = some event then 1 else 0)
  /-- The watches that are due are gone, and there are no new ones. -/
  unregistered : ∀ type path session, session ∈ after.watchers type path →
    session ∈ before.watchers type path ∧ due type path = none
  /-- All other watches are still there. -/
  kept : ∀ type path session, session ∈ before.watchers type path → due type path = none →
    session ∈ after.watchers type path ∨ leaving session

/-- One call of `trigger`. -/
structure Trigger where
  type : WatchType
  path : Bytes
  event : Event

/-- The event that a trigger has for the watches of one kind on one path. -/
def Trigger.fires (type : WatchType) (path : Bytes) (trigger : Trigger) : Option Event :=
  if trigger.type = type ∧ trigger.path = path then some trigger.event else none

def triggerAll (env : Environment) (manager : WatchManager) :
    List Trigger → WatchManager × List ResponseForSession
  | [] => (manager, [])
  | first :: rest =>
    let (after, responses) := manager.trigger env first.type first.path first.event
    let (last, more) := triggerAll env after rest
    (last, responses ++ more)

theorem triggerAll_append (env : Environment) (manager : WatchManager)
    (first second : List Trigger) :
    manager.triggerAll env (first ++ second) =
      (((manager.triggerAll env first).1.triggerAll env second).1,
        (manager.triggerAll env first).2 ++
          ((manager.triggerAll env first).1.triggerAll env second).2) := by
  induction first generalizing manager with
  | nil => rfl
  | cons trigger rest ih => simp only [cons_append, triggerAll, ih, append_assoc]

section

variable {env : Environment} {manager : WatchManager} {type other : WatchType} {path : Bytes}
  {event : Event}

@[simp]
theorem table_setTable (manager : WatchManager) (type other : WatchType)
    (value : Dict Bytes (Finset Int64)) :
    (manager.setTable type value).table other =
      if other = type then value else manager.table other := by
  cases type <;> cases other <;> rfl

theorem table_unregister (manager : WatchManager) (type other : WatchType) (path : Bytes)
    (session : Int64) :
    (manager.unregister type path session).table other = manager.table other := by
  simp only [unregister]
  split <;> cases other <;> rfl

theorem table_foldl_unregister (sessions : List Int64) (manager : WatchManager) :
    (sessions.foldl (unregister type path) manager).table other = manager.table other := by
  induction sessions generalizing manager with
  | nil => rfl
  | cons session rest ih => rw [foldl_cons, ih, table_unregister]

theorem watchers_trigger (otherPath : Bytes) :
    (manager.trigger env type path event).1.watchers other otherPath =
      if type = other ∧ path = otherPath then ∅ else manager.watchers other otherPath := by
  rw [trigger]
  cases found : (manager.table type).lookup path with
  | none =>
    dsimp only
    split
    next isSame =>
      rw [watchers, ← isSame.1, ← isSame.2, found]
      rfl
    next => rfl
  | some sessions =>
    simp only [watchers, table_setTable, table_foldl_unregister]
    by_cases sameType : other = type
    · subst sameType
      rw [if_pos rfl, Finmap.lookup_erase_ite]
      by_cases samePath : otherPath = path
      · simp [samePath]
      · simp [samePath, Ne.symm samePath]
    · rw [if_neg sameType, if_neg fun same => sameType same.1.symm]

theorem count_trigger (session : Int64) (otherEvent : Event) (otherPath : Bytes) :
    (watchEvents (manager.trigger env type path event).2).count (session, otherEvent, otherPath) =
      if session ∈ manager.watchers type path ∧ event = otherEvent ∧ path = otherPath then 1
      else 0 := by
  rw [trigger, watchers]
  cases found : (manager.table type).lookup path with
  | none => simp [watchEvents]
  | some sessions =>
    have events : watchEvents ((env.watchers.list path sessions).map (watchResponse event path)) =
        (env.watchers.list path sessions).map fun session => (session, event, path) := by
      rw [watchEvents, filterMap_map, ← filterMap_eq_map]
      rfl
    have injective : Function.Injective fun session : Int64 => (session, event, path) :=
      fun _ _ same => congrArg Prod.fst same
    have nodup := (env.watchers.nodup_list path sessions).map injective
    simp only [events, nodup.count, mem_map, Enumeration.mem_list, Option.getD_some, Prod.mk.injEq]
    congr 1
    simp only [eq_iff_iff]
    constructor
    · rintro ⟨_, isMember, rfl, rfl, rfl⟩
      exact ⟨isMember, rfl, rfl⟩
    · rintro ⟨isMember, rfl, rfl⟩
      exact ⟨session, isMember, rfl, rfl, rfl⟩

end

theorem Trigger.findSome?_cons (type : WatchType) (path : Bytes) (first : Trigger)
    (rest : List Trigger) :
    (first :: rest).findSome? (fires type path) =
      if first.type = type ∧ first.path = path then some first.event
      else rest.findSome? (fires type path) := by
  rw [List.findSome?_cons, fires]
  split
  next isFirst =>
    split at isFirst
    · rename_i same
      rw [if_pos same, isFirst]
    · cases isFirst
  next isLater =>
    split at isLater
    · cases isLater
    · rename_i other
      rw [if_neg other]

theorem delivers_triggerAll (env : Environment) (manager : WatchManager) (triggers : List Trigger) :
    Delivers (fun type path => triggers.findSome? (Trigger.fires type path)) (fun _ => False)
      manager (manager.triggerAll env triggers).1
      (watchEvents (manager.triggerAll env triggers).2) := by
  induction triggers generalizing manager with
  | nil =>
    refine ⟨fun _ _ _ => ?_, fun _ _ _ isMember => ⟨isMember, rfl⟩, fun _ _ _ held _ => .inl held⟩
    simp [triggerAll, watchEvents]
  | cons first rest ih =>
    have later := ih (manager.trigger env first.type first.path first.event).1
    simp only [triggerAll]
    refine ⟨?_, ?_, ?_⟩
    · intro session event path
      rw [watchEvents_append, count_append, count_trigger, later.sent]
      simp only [watchers_trigger, Trigger.findSome?_cons]
      rcases first with ⟨type, own, ownEvent⟩
      by_cases samePath : own = path
      · subst samePath
        cases type with
        | list => simp [Nat.add_comm]
        | data => simp
      · simp [samePath]
    · intro type path session isMember
      have held := later.unregistered type path session isMember
      rw [watchers_trigger] at held
      rw [Trigger.findSome?_cons]
      split at held
      · simp at held
      next notFirst =>
        rw [if_neg notFirst]
        exact held
    · intro type path session held notDue
      rw [Trigger.findSome?_cons] at notDue
      split at notDue
      · cases notDue
      next notFirst =>
        apply later.kept type path session _ notDue
        rw [watchers_trigger, if_neg notFirst]
        exact held

section

variable {session other : Int64} {table : Dict Bytes (Finset Int64)} {path : Bytes}
  {type : WatchType} {env : Environment} {manager : WatchManager}

theorem lookup_dropWatcher (own : Bytes) :
    ((dropWatcher session table own).lookup path).getD ∅ =
      if path = own then ((table.lookup path).getD ∅).erase session
      else (table.lookup path).getD ∅ := by
  rw [dropWatcher]
  cases found : table.lookup own with
  | none =>
    dsimp only
    split
    next isOwn =>
      rw [isOwn, found]
      rfl
    next => rfl
  | some sessions =>
    dsimp only
    split
    next isLast =>
      rw [Finmap.lookup_erase_ite]
      split
      next isOwn =>
        rw [isOwn, found]
        exact isLast.symm
      next => rfl
    next =>
      rw [Finmap.lookup_insert_ite]
      split
      next isOwn =>
        rw [isOwn, found]
        rfl
      next => rfl

theorem mem_foldl_dropWatcher (paths : List Bytes) :
    other ∈ ((paths.foldl (dropWatcher session) table).lookup path).getD ∅ ↔
      other ∈ (table.lookup path).getD ∅ ∧ (other = session → path ∉ paths) := by
  induction paths generalizing table with
  | nil => simp
  | cons own rest ih =>
    rw [foldl_cons, ih, lookup_dropWatcher, mem_cons, not_or]
    split
    next isOwn =>
      rw [Finset.mem_erase]
      tauto
    next notOwn => tauto

theorem mem_of_mem_cleanDeadWatches
    (isMember : other ∈ (manager.cleanDeadWatches env session).watchers type path) :
    other ∈ manager.watchers type path := by
  rw [cleanDeadWatches] at isMember
  split at isMember
  · exact isMember
  · cases type <;> exact ((mem_foldl_dropWatcher _).mp isMember).1

theorem mem_cleanDeadWatches (isOther : other ≠ session)
    (held : other ∈ manager.watchers type path) :
    other ∈ (manager.cleanDeadWatches env session).watchers type path := by
  rw [cleanDeadWatches]
  split
  · exact held
  · cases type <;> exact (mem_foldl_dropWatcher _).mpr ⟨held, fun same => absurd same isOther⟩

end

def eventTriggers (path : Bytes) (event : Event) : List Trigger :=
  match event with
  | .created => [⟨.data, path, .created⟩, ⟨.list, getParentPath path, .child⟩]
  | .deleted =>
    [⟨.data, path, .deleted⟩, ⟨.list, path, if path = getParentPath path then .child else .deleted⟩,
      ⟨.list, getParentPath path, .child⟩]
  | .changed | .child => [⟨.data, path, event⟩]

def requestTriggers (path : Bytes) : OpNum → List Trigger
  | .create => eventTriggers path .created
  | .remove => eventTriggers path .deleted
  | .set => eventTriggers path .changed
  | _ => []

variable {env : Environment}

theorem processEvent_eq_triggerAll (manager : WatchManager) (path : Bytes) (event : Event) :
    manager.processEvent env path event = manager.triggerAll env (eventTriggers path event) := by
  cases event <;> simp [processEvent, eventTriggers, triggerAll]

theorem processWatches_eq_triggerAll (manager : WatchManager) (path : Bytes) (opnum : OpNum) :
    manager.processWatches env path opnum =
      manager.triggerAll env (requestTriggers path opnum) := by
  cases opnum <;> first | exact processEvent_eq_triggerAll manager path _ | rfl

end WatchManager

open WatchManager

theorem KeeperStore.triggerWatches_eq_triggerAll (env : Environment) (manager : WatchManager)
    (requests : List (Bytes × OpNum)) :
    triggerWatches env manager requests = manager.triggerAll env
      (requests.flatMap fun request => requestTriggers request.1 request.2) := by
  induction requests generalizing manager with
  | nil => rfl
  | cons request rest ih =>
    simp only [flatMap_cons, triggerAll_append, triggerWatches, processWatches_eq_triggerAll, ih]

theorem foldl_processEvent_eq_triggerAll (env : Environment) (paths : List Bytes)
    (manager : WatchManager) (responses : List ResponseForSession) :
    paths.foldl (fun state path =>
        ((state.1.processEvent env path .deleted).1,
          state.2 ++ (state.1.processEvent env path .deleted).2)) (manager, responses) =
      ((manager.triggerAll env (paths.flatMap (eventTriggers · .deleted))).1,
        responses ++ (manager.triggerAll env (paths.flatMap (eventTriggers · .deleted))).2) := by
  induction paths generalizing manager responses with
  | nil => simp [triggerAll]
  | cons path rest ih =>
    rw [foldl_cons, ih, flatMap_cons, triggerAll_append, processEvent_eq_triggerAll, append_assoc]

end RaftKeeper
