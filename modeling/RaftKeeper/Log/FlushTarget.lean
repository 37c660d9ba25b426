import RaftKeeper.Log.Durability

/-!
# The target of a flush

`LogSegmentStore::flush` throws when there is no open segment, and the thread that calls `fdatasync`
ends with the exception. Compaction beyond the last index removes the open segment, and nothing
opens one until the next append. So does a `write_at` that cuts off all entries, and a new segment
whose file is there already.
-/

namespace RaftKeeper

open FsyncSystem LogSegmentStore NuRaftLogSegment Option

open NuRaft (LogEntry)

namespace LogSegmentStore

variable {store : LogSegmentStore} {createTime : CreateTime}

theorem openSegment_foldl_widenTo (segments : List NuRaftLogSegment) (store : LogSegmentStore) :
    (segments.foldl (fun store segment => store.widenTo segment) store).openSegment =
      store.openSegment := by
  induction segments generalizing store with
  | nil => rfl
  | cons segment rest ih =>
    rw [List.foldl_cons, ih, widenTo]
    split
    · dsimp only
      split <;> rfl
    · rfl

theorem hasOpen_of_init {order : Enumeration Unit Bytes} {maxLogSegmentFileSize : ℕ}
    {files : Directory}
    (starts : init order maxLogSegmentFileSize createTime files = .ok store) :
    store.openSegment.isSome = true := by
  rcases Except.bind_eq_ok_iff.mp starts with ⟨_, -, loads⟩
  rcases Except.bind_eq_ok_iff.mp loads with ⟨loaded, -, opens⟩
  split at opens
  next opened =>
    cases opens
    rw [openNewSegmentIfNeeded] at opened
    split at opened
    next isKept =>
      cases opened
      exact isSome_of_any isKept
    next =>
      dsimp only at opened
      split at opened <;> cases opened
      rfl
  next => cases opens

variable (hasOpen : store.openSegment.isSome = true)

include hasOpen

theorem hasOpen_removeSegment {firstIndexKept : ℕ}
    (isKept : firstIndexKept ≤ store.firstLogIndex ∨
      ∃ segment ∈ store.openSegment, firstIndexKept ≤ segment.lastIndex) :
    (store.removeSegment firstIndexKept).openSegment.isSome = true := by
  rw [removeSegment]
  split
  · exact hasOpen
  next notBelow =>
    rcases isKept with isBelow | ⟨segment, isOpen, isKept⟩
    · exact absurd isBelow notBelow
    · dsimp only
      rw [apply_ite openSegment, ite_self, openSegment_foldl_widenTo, removeBefore, isOpen,
        filter_some_pos (by simpa using isKept)]
      rfl

theorem hasOpen_truncateBefore {index : ℕ}
    (isKept : store.lastLogIndex ≤ previousIndex index ∨
      (store.lastSegment (previousIndex index)).isSome = true) :
    ((truncateBefore index).leaves store).openSegment.isSome = true := by
  rw [leaves_truncateBefore, StoreCall.leaves, truncateLog]
  by_cases notAbove : store.lastLogIndex ≤ previousIndex index
  · rw [if_pos notAbove]
    exact hasOpen
  · rcases isSome_iff_exists.mp (isKept.resolve_left notAbove) with ⟨segment, isLast⟩
    rw [if_neg notAbove, isLast]
    dsimp only
    split
    · rename_i returns
      split at returns <;> cases returns
      rfl
    · rename_i throws
      split at throws <;> cases throws
      rfl

theorem hasOpen_openNewSegmentIfNeeded
    (isNew : store.keepsOpenSegment = true ∨ store.closeOpenSegment.files.lookup
      (fresh (store.closeOpenSegment.lastLogIndex + 1) createTime).fileName = none) :
    ((openNewSegmentIfNeeded createTime).leaves store).openSegment.isSome = true := by
  rw [StoreCall.leaves, openNewSegmentIfNeeded]
  by_cases isKept : store.keepsOpenSegment = true
  · rw [if_pos isKept]
    exact hasOpen
  · rw [if_neg isKept]
    simp only [create, isNew.resolve_left isKept, isSome_none]
    rfl

theorem hasOpen_appendToOpenSegment (entry : LogEntry) :
    ((appendToOpenSegment entry).leaves store).openSegment.isSome = true := by
  rcases isSome_iff_exists.mp hasOpen with ⟨segment, isOpen⟩
  simp only [StoreCall.leaves, appendToOpenSegment, isOpen]
  cases segment.appendEntry store.files entry with
  | error _ => exact hasOpen
  | ok _ => rfl

end LogSegmentStore

/-- What else happens to the log store while it is written to. -/
inductive FlushStep
  | step (step : FsyncStep)
  | compact (lastLogIndex : ℕ)
  | shutdown

namespace FsyncSystem

variable {system after : FsyncSystem}

def compact (lastLogIndex : ℕ) (system : FsyncSystem) : FsyncSystem :=
  let store := system.store.compact lastLogIndex
  { system with
    store
    unsynced := system.unsynced.filter (store.segmentStore.firstLogIndex ≤ ·) }

/-- `KeeperServer::shutdown` flushes the store and then wakes the thread a last time. -/
def shutdown (system : FsyncSystem) : FsyncSystem :=
  match system.store.segmentStore.flush with
  | .ok _ => { system.sync with store := system.store.setEvent }
  | .error _ => system

def nextFlush (system : FsyncSystem) : FlushStep → Option FsyncSystem
  | .step step => system.next step
  | .compact lastLogIndex => some (system.compact lastLogIndex)
  | .shutdown => some system.shutdown

/-- Compaction ends before the last entry of the open segment or does nothing, `write_at` leaves
the segment that it cuts, and a new segment has a file of its own. -/
def KeepsOpen (system : FsyncSystem) : FlushStep → Prop
  | .compact lastLogIndex =>
    lastLogIndex + 1 ≤ system.store.segmentStore.firstLogIndex ∨
      ∃ segment ∈ system.store.segmentStore.openSegment, lastLogIndex + 1 ≤ segment.lastIndex
  | .step (.writeAt index _) =>
    system.store.segmentStore.lastLogIndex ≤ previousIndex index ∨
      (system.store.segmentStore.lastSegment (previousIndex index)).isSome = true
  | .step (.openSegment createTime) =>
    system.store.segmentStore.keepsOpenSegment = true ∨
      let closed := system.store.segmentStore.closeOpenSegment
      closed.files.lookup (fresh (closed.lastLogIndex + 1) createTime).fileName = none
  | .step _ | .shutdown => True

theorem hasOpen_moves {step : FsyncStep} (moves : system.Moves step after)
    (hasOpen : system.store.segmentStore.openSegment.isSome = true)
    (keeps : system.KeepsOpen (.step step)) :
    after.store.segmentStore.openSegment.isSome = true := by
  cases moves with
  | append | wake | store => exact hasOpen
  | writeAt index entry =>
    rcases onSegments_eq (truncateBefore index) (fun _ => .opening .writeAt entry) system with
      ⟨_, isAfter, _⟩
    rw [truncate, isAfter]
    exact hasOpen_truncateBefore hasOpen keeps
  | @openSegment createTime call entry =>
    rcases onSegments_eq (openNewSegmentIfNeeded createTime) (fun _ => .writing call entry) system
      with ⟨_, isAfter, _⟩
    rw [isAfter]
    exact hasOpen_openNewSegmentIfNeeded hasOpen keeps
  | @write call entry =>
    have appended := hasOpen_appendToOpenSegment hasOpen entry
    rw [StoreCall.leaves] at appended
    rw [write]
    split at appended <;> simp_all
  | @finish call =>
    cases call with
    | append => simpa [finish, NuRaftFileLogStore.finishAppend, apply_ite] using hasOpen
    | writeAt => simpa [finish, NuRaftFileLogStore.finishWriteAt, apply_ite] using hasOpen
  | endOfAppendBatch start count =>
    rcases NuRaftFileLogStore.endOfAppendBatch_eq count system.store with ⟨_, _, ended⟩
    simp only [endOfAppendBatch, ended]
    split
    · split <;> exact hasOpen
    · exact hasOpen
  | flush =>
    rw [flush]
    split <;> exact hasOpen

theorem hasOpen_nextFlush {step : FlushStep} (keeps : system.KeepsOpen step)
    (moves : system.nextFlush step = some after)
    (hasOpen : system.store.segmentStore.openSegment.isSome = true) :
    after.store.segmentStore.openSegment.isSome = true := by
  cases step with
  | step step => exact hasOpen_moves (moves_of_next moves) hasOpen keeps
  | compact lastLogIndex =>
    cases moves
    exact hasOpen_removeSegment hasOpen keeps
  | shutdown =>
    cases moves
    rw [shutdown]
    split
    · simpa using hasOpen
    · exact hasOpen

/-- As long as no step takes the open segment away, every flush has a segment to flush. -/
theorem flush_has_target {order : Enumeration Unit Bytes} {logFsyncMode : FsyncMode}
    {logFsyncInterval maxLogSegmentFileSize : ℕ} {createTime : CreateTime} {files : Directory}
    {store : NuRaftFileLogStore}
    (creates : NuRaftFileLogStore.create order logFsyncMode logFsyncInterval maxLogSegmentFileSize
      createTime files = .ok store)
    (reached : ReachableBy nextFlush KeepsOpen (start store) system) :
    system.store.segmentStore.flush ≠ .error .noOpenSegment := by
  have hasOpen : system.store.segmentStore.openSegment.isSome = true := by
    refine reached.invariant (·.store.segmentStore.openSegment.isSome = true) ?_
      fun hasOpen keeps moves => hasOpen_nextFlush keeps moves hasOpen
    exact hasOpen_of_init (segmentStore_of_create creates).1
  rcases isSome_iff_exists.mp hasOpen with ⟨segment, isOpen⟩
  rw [LogSegmentStore.flush, isOpen]
  dsimp only
  split <;> simp

instance (system : FsyncSystem) : DecidablePred system.KeepsOpen := fun step => by
  unfold KeepsOpen
  split <;> infer_instance

def flushedRun : List FlushStep :=
  firstSteps.map .step ++ [.compact 0, .step (.endOfAppendBatch 1 1)] ++ fsyncSteps.map .step ++
    [.shutdown]

theorem flush_has_target_flushedRun :
    ∃ system, ReachableBy nextFlush KeepsOpen (start (.sample .fsyncParallel)) system ∧
      system.store.lastDurableIndex = 1 ∧
      system.store.segmentStore.flush ≠ .error .noOpenSegment :=
  exists_reached_of (·.store.lastDurableIndex = 1) flushedRun (by decide +kernel)
    fun reached isDurable =>
      ⟨isDurable, flush_has_target (NuRaftFileLogStore.create_sample _) reached⟩

def compactedRun : List FlushStep :=
  firstSteps.map .step ++ [.step (.endOfAppendBatch 1 1), .step .wake, .compact 1, .step .flush]

def overwrittenRun : List FlushStep :=
  firstSteps.map .step ++
    [.step (.endOfAppendBatch 1 1), .step (.writeAt 1 (sampleEntry 2)), .step .wake, .step .flush]

/-- The thread ends when it flushes after a compaction up to the last index, or in the middle of a
`write_at` at the first one, and the entry that it was woken for is never reported to be durable. -/
theorem compaction_ends_thread :
    (∃ system, ReachableBy nextFlush (fun _ _ => True) (start (.sample .fsyncParallel)) system ∧
      system.thread = .stopped ∧ system.store.segmentStore.openSegment = none ∧
      system.store.lastDurableIndex = 0) ∧
    ∃ system, ReachableBy nextFlush (fun _ _ => True) (start (.sample .fsyncParallel)) system ∧
      system.thread = .stopped ∧ system.store.segmentStore.openSegment = none ∧
      system.store.lastDurableIndex = 0 := by
  constructor
  · exact exists_reached compactedRun (by decide +kernel)
  · exact exists_reached overwrittenRun (by decide +kernel)

end FsyncSystem

end RaftKeeper
