import RaftKeeper.Store.SetWatches

/-!
# The indexes of the watches

The watches are kept twice: by path, in one table for each kind, and by session, with a mask of both
kinds. Every public operation is a sequence of three kinds of steps: register a watch, trigger the
watches of a path, forget a session. Each keeps the two indexes in agreement.
-/

namespace RaftKeeper

open Finmap List Option

theorem WatchType.bit_ne_zero_of_xor {mask : UInt8} {type : WatchType} (other : WatchType)
    (isSet : mask &&& type.bit ≠ 0) :
    (mask ^^^ type.bit) &&& other.bit ≠ 0 ↔ other ≠ type ∧ mask &&& other.bit ≠ 0 := by
  rcases mask with ⟨mask⟩
  revert mask
  cases type <;> cases other <;> decide +kernel

theorem WatchType.bit_ne_zero_of_or (mask : UInt8) (type other : WatchType) :
    (mask ||| type.bit) &&& other.bit ≠ 0 ↔ other = type ∨ mask &&& other.bit ≠ 0 := by
  rcases mask with ⟨mask⟩
  revert mask
  cases type <;> cases other <;> decide +kernel

namespace WatchManager

/-- What the public operations are made of. -/
inductive Step
  | add (type : WatchType) (path : Bytes) (session : Int64)
  | trigger (due : Trigger)
  | clean (session : Int64)
  | reset

def Step.apply (env : Environment) (manager : WatchManager) : Step → WatchManager
  | add type path session => manager.addWatch type path session
  | trigger due => (manager.trigger env due.type due.path due.event).1
  | clean session => manager.cleanDeadWatches env session
  | reset => {}

/-- The steps of an operation, with a mutex that may be taken twice. -/
def Action.steps : Action → List Step
  | registerWatches path session opnum =>
    [.add (if opnum = .list ∨ opnum = .simpleList ∨ opnum = .filteredList then .list else .data)
      path session]
  | processWatches path opnum => (requestTriggers path opnum).map .trigger
  | processEvent path event => (eventTriggers path event).map .trigger
  | processRequestSetWatch session request watchNodesInfo =>
    (visits request watchNodesInfo).flatMap fun visit =>
      .add visit.type visit.path session ::
        (visit.missed.toList.flatMap (eventTriggers visit.path)).map .trigger
  | cleanDeadWatches session => [.clean session]
  | read => []
  | reset => [.reset]

variable {env : Environment} {manager : WatchManager}

theorem foldl_apply_trigger (triggers : List Trigger) :
    (triggers.map .trigger).foldl (Step.apply env) manager =
      (manager.triggerAll env triggers).1 := by
  induction triggers generalizing manager with
  | nil => rfl
  | cons first rest ih => exact ih

theorem Action.run_eq_steps (action : Action) :
    (action.run true env false manager).map Prod.fst =
      some (action.steps.foldl (Step.apply env) manager) := by
  cases action with
  | registerWatches => rfl
  | processWatches path opnum =>
    have isRun : (run true env false manager (.processWatches path opnum)).map Prod.fst =
        some (manager.processWatches env path opnum).1 := by
      cases opnum <;> rfl
    rw [isRun, processWatches_eq_triggerAll, steps, foldl_apply_trigger]
  | processEvent path event =>
    rw [steps, foldl_apply_trigger, ← processEvent_eq_triggerAll]
    rfl
  | processRequestSetWatch session request watchNodesInfo =>
    have visited : ∀ (visits : List Visit) (current : WatchManager) responses,
        ((visits.foldl (visitPath (fun current path event =>
            some (current.processEvent env path event)) session)
              (some (current, responses))).map Prod.fst) =
          some ((visits.flatMap fun visit => .add visit.type visit.path session ::
            (visit.missed.toList.flatMap (eventTriggers visit.path)).map .trigger).foldl
              (Step.apply env) current) := by
      intro visits
      induction visits with
      | nil => exact fun _ _ => rfl
      | cons visit rest ih =>
        intro current responses
        rw [foldl_cons, flatMap_cons, foldl_append, foldl_cons, foldl_apply_trigger]
        cases missed : visit.missed with
        | none =>
          simp only [visitPath, missed, bind_some]
          exact ih _ _
        | some event =>
          simp only [visitPath, missed, bind_some, map_some, ih,
            toList_some, flatMap_cons, flatMap_nil, append_nil,
            ← processEvent_eq_triggerAll]
          rfl
    have isRun : run true env false manager
        (.processRequestSetWatch session request watchNodesInfo) =
          processRequestSetWatchWith (fun current path event =>
            some (current.processEvent env path event)) manager session request
              watchNodesInfo := rfl
    rw [isRun, processRequestSetWatchWith_eq_foldl, visited, steps]
  | cleanDeadWatches | read | reset => rfl

/-- The types of watch that `sessions_and_watchers` has for a session and a path. -/
def stored (manager : WatchManager) (session : Int64) (path : Bytes) : Option UInt8 :=
  (manager.sessionsAndWatchers.lookup session).bind (·.lookup path)

section

variable {session other : Int64} {path otherPath : Bytes}

theorem mask_eq : manager.mask session path = (manager.stored session path).getD 0 := by
  rw [mask, stored]
  cases manager.sessionsAndWatchers.lookup session <;> rfl

theorem stored_setMask (value : UInt8) :
    (manager.setMask session path value).stored other otherPath =
      if other = session ∧ otherPath = path then some value
      else manager.stored other otherPath := by
  simp only [stored, setMask, lookup_insert_ite]
  by_cases isSession : other = session
  · subst isSession
    rw [if_pos rfl, bind_some, lookup_insert_ite]
    cases manager.sessionsAndWatchers.lookup other <;> simp
  · simp [isSession]

theorem stored_eraseMask :
    (manager.eraseMask session path).stored other otherPath =
      if other = session ∧ otherPath = path then none else manager.stored other otherPath := by
  simp only [stored, eraseMask, lookup_insert_ite]
  by_cases isSession : other = session
  · subst isSession
    rw [if_pos rfl, bind_some, lookup_erase_ite]
    cases manager.sessionsAndWatchers.lookup other <;> simp
  · simp [isSession]

theorem stored_addWatch (type : WatchType) :
    (manager.addWatch type path session).stored other otherPath =
      if other = session ∧ otherPath = path then some (manager.mask session path ||| type.bit)
      else manager.stored other otherPath := by
  rw [addWatch, stored_setMask]
  cases type <;> rfl

/-- What is stored of a mask: a path without a bit is forgotten. -/
def storing (value : UInt8) : Option UInt8 := if value = 0 then none else some value

theorem getD_storing (value : UInt8) : (storing value).getD 0 = value := by
  unfold storing
  split
  next isZero => exact isZero.symm
  next => rfl

theorem storing_ne_zero (value : UInt8) : storing value ≠ some 0 := by
  unfold storing
  split
  · nofun
  next notZero => exact fun isZero => notZero (some.inj isZero)

theorem stored_unregister (type : WatchType) :
    (manager.unregister type path session).stored other otherPath =
      if other = session ∧ otherPath = path then storing (manager.mask session path ^^^ type.bit)
      else manager.stored other otherPath := by
  simp only [unregister, storing]
  split
  · exact stored_eraseMask
  · exact stored_setMask _

theorem stored_foldl_unregister (type : WatchType) {sessions : List Int64}
    (nodup : sessions.Nodup) :
    (sessions.foldl (unregister type path) manager).stored other otherPath =
      if other ∈ sessions ∧ otherPath = path then storing (manager.mask other path ^^^ type.bit)
      else manager.stored other otherPath := by
  induction sessions generalizing manager with
  | nil => simp
  | cons first rest ih =>
    rcases nodup_cons.mp nodup with ⟨notLater, nodupRest⟩
    rw [foldl_cons, ih nodupRest]
    by_cases isFirst : other = first
    · subst isFirst
      simp [notLater, stored_unregister]
    · simp [isFirst, mask_eq, stored_unregister]

end

/-- The two indexes say the same, and neither keeps anything that says nothing. -/
structure Indexed (manager : WatchManager) : Prop where
  agrees : ∀ type path session, session ∈ manager.watchers type path ↔
    manager.mask session path &&& type.bit ≠ 0
  masks : ∀ session path, manager.stored session path ≠ some 0
  watched : ∀ type path, (manager.table type).lookup path ≠ some ∅

/-- The masks from which the bits are taken while these sessions are unregistered. -/
def flipped (type : WatchType) (path : Bytes) : List Int64 → WatchManager → List UInt8
  | [], _ => []
  | session :: rest, manager =>
    manager.mask session path :: flipped type path rest (manager.unregister type path session)

/-- The exclusive ors of a step, each with its mask and its kind of watch. -/
def Step.flips (env : Environment) (manager : WatchManager) : Step → List (UInt8 × WatchType)
  | trigger due =>
    match (manager.table due.type).lookup due.path with
    | none => []
    | some sessions =>
      (flipped due.type due.path (env.watchers.list due.path sessions) manager).map (·, due.type)
  | add .. | clean _ | reset => []

theorem mem_flipped {type : WatchType} {path : Bytes} {sessions : List Int64}
    (nodup : sessions.Nodup) {mask : UInt8}
    (isFlipped : mask ∈ flipped type path sessions manager) :
    ∃ session ∈ sessions, mask = manager.mask session path := by
  induction sessions generalizing manager with
  | nil => cases isFlipped
  | cons first rest ih =>
    rcases nodup_cons.mp nodup with ⟨notLater, nodupRest⟩
    rcases mem_cons.mp isFlipped with rfl | isLater
    · exact ⟨first, mem_cons_self, rfl⟩
    · rcases ih nodupRest isLater with ⟨session, isMember, rfl⟩
      refine ⟨session, mem_cons_of_mem _ isMember, ?_⟩
      have isOther : session ≠ first := fun same => notLater (same ▸ isMember)
      rw [mask_eq, mask_eq, stored_unregister, if_neg fun same => isOther same.1]

namespace Indexed

theorem empty : Indexed {} where
  agrees type path session := by
    cases type <;> simp [watchers, table, mask]
  masks session path := by simp [stored]
  watched type path := by cases type <;> simp [table]

theorem add (indexed : Indexed manager) (type : WatchType) (path : Bytes) (session : Int64) :
    Indexed (manager.addWatch type path session) where
  agrees other otherPath otherSession := by
    rw [watchers_addWatch, mask_eq, stored_addWatch]
    by_cases samePath : otherPath = path
    · subst samePath
      by_cases sameSession : otherSession = session
      · subst sameSession
        simp only [and_self, if_true, getD_some, WatchType.bit_ne_zero_of_or, ← indexed.agrees]
        by_cases sameType : other = type
        · simp [sameType]
        · simp [sameType]
      · simp only [sameSession, false_and, if_false, ← mask_eq, ← indexed.agrees]
        by_cases sameType : other = type
        · simp [sameType, sameSession]
        · simp [sameType]
    · simp only [samePath, and_false, if_false, ← mask_eq, indexed.agrees]
  masks other otherPath := by
    rw [stored_addWatch]
    split
    · have isSet := (WatchType.bit_ne_zero_of_or (manager.mask session path) type type).mpr
        (.inl rfl)
      intro isZero
      rw [some.inj isZero] at isSet
      simp at isSet
    · exact indexed.masks other otherPath
  watched other otherPath := by
    rw [table_addWatch]
    split
    · rw [lookup_insert_ite]
      split
      · exact fun isEmpty => Finset.insert_ne_empty _ _ (some.inj isEmpty)
      · exact indexed.watched type otherPath
    · exact indexed.watched other otherPath

theorem flips_set (indexed : Indexed manager) (env : Environment) (step : Step) :
    ∀ flip ∈ step.flips env manager, flip.1 &&& flip.2.bit ≠ 0 := by
  intro flip isFlip
  cases step with
  | trigger due =>
    rw [Step.flips] at isFlip
    split at isFlip
    · cases isFlip
    next sessions found =>
      rcases mem_map.mp isFlip with ⟨mask, isFlipped, rfl⟩
      rcases mem_flipped (env.watchers.nodup_list ..) isFlipped with ⟨session, isMember, rfl⟩
      rw [← indexed.agrees, watchers, found]
      exact env.watchers.mem_list.mp isMember
  | add | clean | reset => cases isFlip

theorem trigger (indexed : Indexed manager) (env : Environment) (type : WatchType) (path : Bytes)
    (event : Event) : Indexed (manager.trigger env type path event).1 := by
  cases found : (manager.table type).lookup path with
  | none =>
    have unchanged : (manager.trigger env type path event).1 = manager := by
      simp [WatchManager.trigger, found]
    rwa [unchanged]
  | some sessions =>
    have storedAfter : ∀ session otherPath,
        (manager.trigger env type path event).1.stored session otherPath =
          if session ∈ manager.watchers type path ∧ otherPath = path then
            storing (manager.mask session path ^^^ type.bit)
          else manager.stored session otherPath := by
      intro session otherPath
      have sameMasks : (manager.trigger env type path event).1.stored session otherPath =
          ((env.watchers.list path sessions).foldl (unregister type path) manager).stored session
            otherPath := by
        simp only [WatchManager.trigger, found]
        cases type <;> rfl
      rw [sameMasks, stored_foldl_unregister type (env.watchers.nodup_list ..), watchers, found]
      simp only [Enumeration.mem_list, getD_some]
    constructor
    · intro other otherPath session
      rw [mask_eq, storedAfter]
      by_cases samePath : otherPath = path
      · subst samePath
        by_cases held : session ∈ manager.watchers type otherPath
        · have isSet := (indexed.agrees type otherPath session).mp held
          rw [if_pos ⟨held, rfl⟩, getD_storing, WatchType.bit_ne_zero_of_xor other isSet,
            ← indexed.agrees, watchers_trigger]
          by_cases sameType : type = other
          · simp [sameType]
          · simp [sameType, Ne.symm sameType]
        · rw [if_neg fun both => held both.1, ← mask_eq, ← indexed.agrees, watchers_trigger]
          by_cases sameType : type = other
          · subst sameType
            simp [held]
          · simp [sameType]
      · rw [if_neg fun both => samePath both.2, ← mask_eq, ← indexed.agrees, watchers_trigger,
          if_neg fun both => samePath both.2.symm]
    · intro session otherPath
      rw [storedAfter]
      split
      · exact storing_ne_zero _
      · exact indexed.masks session otherPath
    · intro other otherPath
      simp only [WatchManager.trigger, found, table_setTable, table_foldl_unregister]
      split
      · rw [lookup_erase_ite]
        split
        · simp
        · exact indexed.watched type otherPath
      · exact indexed.watched other otherPath

theorem mem_watchers_clean (indexed : Indexed manager) (env : Environment) (session other : Int64)
    (type : WatchType) (path : Bytes) :
    other ∈ (manager.cleanDeadWatches env session).watchers type path ↔
      other ∈ manager.watchers type path ∧ other ≠ session := by
  refine ⟨fun isMember => ⟨mem_of_mem_cleanDeadWatches isMember, ?_⟩, fun held =>
    mem_cleanDeadWatches held.2 held.1⟩
  rintro rfl
  have held := mem_of_mem_cleanDeadWatches isMember
  have isSet := (indexed.agrees type path other).mp held
  rw [mask_eq, stored] at isSet
  rw [cleanDeadWatches] at isMember
  cases found : manager.sessionsAndWatchers.lookup other with
  | none => simp [found] at isSet
  | some masks =>
    rw [found, bind_some] at isSet
    have isWatched : path ∈ masks := by
      by_contra absent
      rw [lookup_eq_none.mpr absent] at isSet
      simp at isSet
    simp only [found] at isMember
    cases type <;>
      exact ((mem_foldl_dropWatcher _).mp isMember).2 rfl
        (env.watchedPaths.mem_list.mpr (mem_keys.mpr isWatched))

theorem stored_clean (env : Environment) (session other : Int64) (path : Bytes) :
    (manager.cleanDeadWatches env session).stored other path =
      if other = session then none else manager.stored other path := by
  rw [cleanDeadWatches]
  cases found : manager.sessionsAndWatchers.lookup session with
  | none =>
    dsimp only
    split
    next isSession => rw [isSession, stored, found, bind_none]
    next => rfl
  | some masks =>
    simp only [stored, lookup_erase_ite]
    split <;> rfl

theorem lookup_foldl_dropWatcher {session : Int64} {table : Dict Bytes (Finset Int64)}
    (watched : ∀ path, table.lookup path ≠ some ∅) (paths : List Bytes) (path : Bytes) :
    (paths.foldl (dropWatcher session) table).lookup path ≠ some ∅ := by
  induction paths generalizing table with
  | nil => exact watched path
  | cons own rest ih =>
    refine ih fun other => ?_
    rw [dropWatcher]
    split
    · exact watched other
    · split
      · rw [lookup_erase_ite]
        split
        · simp
        · exact watched other
      next left =>
        rw [lookup_insert_ite]
        split
        · exact fun isEmpty => left (some.inj isEmpty)
        · exact watched other

theorem clean (indexed : Indexed manager) (env : Environment) (session : Int64) :
    Indexed (manager.cleanDeadWatches env session) where
  agrees type path other := by
    rw [indexed.mem_watchers_clean, mask_eq, stored_clean]
    by_cases isSession : other = session
    · simp [isSession]
    · rw [if_neg isSession, ← mask_eq, ← indexed.agrees]
      simp [isSession]
  masks other path := by
    rw [stored_clean]
    split
    · nofun
    · exact indexed.masks other path
  watched type path := by
    rw [cleanDeadWatches]
    split
    · exact indexed.watched type path
    · cases type with
      | data => exact lookup_foldl_dropWatcher (indexed.watched .data) _ path
      | list => exact lookup_foldl_dropWatcher (indexed.watched .list) _ path

theorem apply (indexed : Indexed manager) (env : Environment) (step : Step) :
    Indexed (step.apply env manager) := by
  cases step with
  | add type path session => exact indexed.add type path session
  | trigger due => exact indexed.trigger env due.type due.path due.event
  | clean session => exact indexed.clean env session
  | reset => exact empty

end Indexed

/-- A call with a mutex that may be taken twice. -/
def next (manager : WatchManager) (call : Environment × Action) : Option WatchManager :=
  (call.2.run true call.1 false manager).map Prod.fst

def flips (env : Environment) : List Step → WatchManager → List (UInt8 × WatchType)
  | [], _ => []
  | step :: rest, manager => step.flips env manager ++ flips env rest (step.apply env manager)

theorem Indexed.foldl_apply (indexed : Indexed manager) (env : Environment) (steps : List Step) :
    Indexed (steps.foldl (Step.apply env) manager) ∧
      ∀ flip ∈ flips env steps manager, flip.1 &&& flip.2.bit ≠ 0 := by
  induction steps generalizing manager with
  | nil => exact ⟨indexed, nofun⟩
  | cons step rest ih =>
    rcases ih (indexed.apply env step) with ⟨later, laterFlips⟩
    refine ⟨later, fun flip isFlip => ?_⟩
    exact (mem_append.mp isFlip).elim (indexed.flips_set env step flip) (laterFlips flip)

/--
In every state the indexes of the watches agree. Every exclusive or of the next call clears a
bit that is set, and a session that is cleaned up holds no watch afterwards.
-/
theorem indexes_agree {manager : WatchManager}
    (reached : ReachableBy next (fun _ _ => True) {} manager) :
    Indexed manager ∧
      (∀ env action, ∀ flip ∈ flips env (Action.steps action) manager, flip.1 &&& flip.2.bit ≠ 0) ∧
      ∀ env session, ∀ path,
        (manager.cleanDeadWatches env session).stored session path = none ∧
          ∀ type, session ∉ (manager.cleanDeadWatches env session).watchers type path := by
  have indexed := reached.invariant Indexed .empty fun indexed _ moves => by
    rw [next, Action.run_eq_steps, some.injEq] at moves
    subst moves
    exact (indexed.foldl_apply _ _).1
  refine ⟨indexed, fun env action => (indexed.foldl_apply env _).2, fun env session path =>
    ⟨?_, ?_⟩⟩
  · rw [Indexed.stored_clean, if_pos rfl]
  · intro type isMember
    exact ((indexed.mem_watchers_clean env session session type path).mp isMember).2 rfl

def watchedRun : List (Environment × Action) :=
  [(.sorted, .registerWatches (ascii "/x") 1 .get),
    (.sorted, .registerWatches (ascii "/x") 1 .list),
    (.sorted, .processWatches (ascii "/x/y") .create)]

theorem indexes_agree_watchedRun :
    ∃ manager, ReachableBy next (fun _ _ => True) {} manager ∧
      manager.mask 1 (ascii "/x") = WatchType.data.bit ∧
        1 ∈ manager.watchers .data (ascii "/x") ∧ 1 ∉ manager.watchers .list (ascii "/x") := by
  refine exists_reached_of (·.mask 1 (ascii "/x") = WatchType.data.bit) watchedRun
    (by decide +kernel) ?_
  intro manager reached isMask
  have agrees := (indexes_agree reached).1.agrees
  refine ⟨isMask, (agrees .data _ _).mpr ?_, fun held => ?_⟩
  · rw [isMask]
    decide
  · have isSet := (agrees .list _ _).mp held
    rw [isMask] at isSet
    exact isSet (by decide)

end WatchManager

end RaftKeeper
