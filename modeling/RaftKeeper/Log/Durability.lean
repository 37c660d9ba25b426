import RaftKeeper.Log.Cache
import RaftKeeper.Log.OpenSegment

/-!
# Durable entries

The calls of the Raft server and the thread that calls `fdatasync` take their steps in any order; a
step is what happens under one acquisition of `seg_mutex`. `fdatasync` reaches the file of the open
segment only. So an entry that is not synced when its segment is closed stays so, although later
indexes are reported to be durable, and an entry that overwrites a durable one is reported to be
durable before it is synced.
-/

namespace RaftKeeper

open Finset

open NuRaft (LogEntry)

/-- The call that a write belongs to. -/
inductive WriteCall
  | append
  | writeAt
deriving DecidableEq

/-- Where the thread that calls `append` or `write_at` stands. -/
inductive Caller
  | idle
  /-- Before `openNewSegmentIfNeeded`. -/
  | opening (call : WriteCall) (entry : LogEntry)
  /-- Before `open_segment->appendEntry`. -/
  | writing (call : WriteCall) (entry : LogEntry)
  /-- The entry is in its segment. -/
  | finishing (call : WriteCall) (index : ℕ) (entry : LogEntry)
  /-- `end_of_append_batch` has returned. -/
  | batchEnded (start count : ℕ)
deriving DecidableEq

def Caller.isIdle : Caller → Bool
  | idle => true
  | batchEnded _ _ => true
  | _ => false

/-- Where the thread of `FSYNC_PARALLEL` stands. -/
inductive FsyncThread
  | waiting
  | flushing
  /-- Before the index that `flush` returned is stored. -/
  | storing (lastFlushIndex : ℕ)
  /-- After an exception. -/
  | stopped
deriving DecidableEq

/-- The log store, its two threads and the indexes whose bytes are not synced. -/
structure FsyncSystem where
  store : NuRaftFileLogStore
  caller : Caller
  thread : FsyncThread
  unsynced : Finset ℕ
deriving DecidableEq

/-- What happens under one acquisition of `seg_mutex`, and the end of a call or batch. -/
inductive FsyncStep
  | append (entry : LogEntry)
  | writeAt (index : ℕ) (entry : LogEntry)
  | openSegment (createTime : CreateTime)
  | write
  | finish
  | endOfAppendBatch (start count : ℕ)
  | wake
  | flush
  | store

namespace FsyncSystem

def start (store : NuRaftFileLogStore) : FsyncSystem := ⟨store, .idle, .waiting, ∅⟩

/-- A call on the segments; an exception ends the call of the Raft server. -/
def onSegments {α : Type} (call : StoreCall α) (returns : α → Caller) (system : FsyncSystem) :
    FsyncSystem :=
  match call system.store.segmentStore with
  | .ok value after =>
    { system with
      store := { system.store with segmentStore := after }
      caller := returns value }
  | .error _ after =>
    { system with
      store := { system.store with segmentStore := after }
      caller := .idle }

def sync (system : FsyncSystem) : FsyncSystem :=
  { system with
    unsynced := system.unsynced.filter fun index => ¬ system.store.segmentStore.InOpen index }

/-- `write_at` up to the call of `appendEntry`; the entries that are cut off are no longer there
to be synced. -/
def truncate (index : ℕ) (entry : LogEntry) (system : FsyncSystem) : FsyncSystem :=
  let after := system.onSegments (LogSegmentStore.truncateBefore index) fun _ =>
    .opening .writeAt entry
  { after with
    unsynced := system.unsynced.filter (· ≤ after.store.segmentStore.lastLogIndex) }

def write (call : WriteCall) (entry : LogEntry) (system : FsyncSystem) : FsyncSystem :=
  match LogSegmentStore.appendToOpenSegment entry system.store.segmentStore with
  | .ok index after =>
    { system with
      store := { system.store with segmentStore := after }
      caller := .finishing call index entry
      unsynced := insert index system.unsynced }
  | .error _ after =>
    { system with
      store := { system.store with segmentStore := after }
      caller := .idle }

/-- What the calls do after the entry is written. -/
def finish (call : WriteCall) (index : ℕ) (entry : LogEntry) (system : FsyncSystem) : FsyncSystem :=
  { system with
    store :=
      match call with
      | .append => system.store.finishAppend index entry
      | .writeAt => system.store.finishWriteAt entry
    caller := .idle }

def endOfAppendBatch (start count : ℕ) (system : FsyncSystem) : FsyncSystem :=
  let ended := system.store.endOfAppendBatch count
  let after := { system with store := ended.2, caller := .batchEnded start count }
  if ended.1 then
    match ended.2.segmentStore.flush with
    | .ok _ => after.sync
    | .error _ => { after with caller := .idle }
  else after

def flush (system : FsyncSystem) : FsyncSystem :=
  match system.store.segmentStore.flush with
  | .ok 0 => { system.sync with thread := .waiting }
  | .ok lastFlushIndex => { system.sync with thread := .storing lastFlushIndex }
  | .error _ => { system with thread := .stopped }

def next (system : FsyncSystem) : FsyncStep → Option FsyncSystem
  | .append entry =>
    if system.caller.isIdle then some { system with caller := .opening .append entry } else none
  | .writeAt index entry =>
    if system.caller.isIdle then some (system.truncate index entry) else none
  | .openSegment createTime =>
    match system.caller with
    | .opening call entry =>
      some (system.onSegments (LogSegmentStore.openNewSegmentIfNeeded createTime) fun _ =>
        .writing call entry)
    | _ => none
  | .write =>
    match system.caller with
    | .writing call entry => some (system.write call entry)
    | _ => none
  | .finish =>
    match system.caller with
    | .finishing call index entry => some (system.finish call index entry)
    | _ => none
  | .endOfAppendBatch start count =>
    if system.caller.isIdle then some (system.endOfAppendBatch start count) else none
  | .wake =>
    match system.thread, system.store.parallelFsyncEvent with
    | .waiting, true =>
      some
        { system with
          store := { system.store with parallelFsyncEvent := false }
          thread := .flushing }
    | _, _ => none
  | .flush =>
    match system.thread with
    | .flushing => some system.flush
    | _ => none
  | .store =>
    match system.thread with
    | .storing lastFlushIndex =>
      some
        { system with
          store := { system.store with diskLastDurableIndex := lastFlushIndex }
          thread := .waiting }
    | _ => none

/-- The steps, each with what it waits for. -/
inductive Moves (system : FsyncSystem) : FsyncStep → FsyncSystem → Prop
  | append (entry : LogEntry) (isIdle : system.caller.isIdle = true) :
      Moves system (.append entry) { system with caller := .opening .append entry }
  | writeAt (index : ℕ) (entry : LogEntry) (isIdle : system.caller.isIdle = true) :
      Moves system (.writeAt index entry) (system.truncate index entry)
  | openSegment (createTime : CreateTime) {call : WriteCall} {entry : LogEntry}
      (isOpening : system.caller = .opening call entry) :
      Moves system (.openSegment createTime)
        (system.onSegments (LogSegmentStore.openNewSegmentIfNeeded createTime) fun _ =>
          .writing call entry)
  | write {call : WriteCall} {entry : LogEntry} (isWriting : system.caller = .writing call entry) :
      Moves system .write (system.write call entry)
  | finish {call : WriteCall} {index : ℕ} {entry : LogEntry}
      (isFinishing : system.caller = .finishing call index entry) :
      Moves system .finish (system.finish call index entry)
  | endOfAppendBatch (start count : ℕ) (isIdle : system.caller.isIdle = true) :
      Moves system (.endOfAppendBatch start count) (system.endOfAppendBatch start count)
  | wake (isWaiting : system.thread = .waiting) :
      Moves system .wake { system with
        store := { system.store with parallelFsyncEvent := false }, thread := .flushing }
  | flush (isFlushing : system.thread = .flushing) : Moves system .flush system.flush
  | store {lastFlushIndex : ℕ} (isStoring : system.thread = .storing lastFlushIndex) :
      Moves system .store { system with
        store := { system.store with diskLastDurableIndex := lastFlushIndex }, thread := .waiting }

theorem moves_of_next {system after : FsyncSystem} {step : FsyncStep}
    (moves : system.next step = some after) : system.Moves step after := by
  unfold next at moves
  split at moves
  case h_1 | h_2 | h_6 =>
    rcases Option.ite_none_right_eq_some.mp moves with ⟨isIdle, isAfter⟩
    cases isAfter
    constructor
    exact isIdle
  all_goals
    split at moves
    · cases moves
      constructor
      assumption
    · cases moves

def writeSteps (createTime : CreateTime) : List FsyncStep :=
  [.openSegment createTime, .write, .finish]

/-- The indexes that are or will be reported to be durable. -/
def reported (system : FsyncSystem) : List ℕ :=
  match system.thread with
  | .storing lastFlushIndex => [system.store.diskLastDurableIndex, lastFlushIndex]
  | _ => [system.store.diskLastDurableIndex]

/-- A segment is closed only when it is synced, and no entry up to an index that is reported is
overwritten. -/
def Cautious (system : FsyncSystem) : FsyncStep → Prop
  | .openSegment _ => system.store.segmentStore.keepsOpenSegment = true ∨
      ∀ index ∈ system.unsynced, ¬ system.store.segmentStore.InOpen index
  | .writeAt index _ => system.store.logFsyncMode = .fsyncParallel →
      ∀ durable ∈ system.reported, durable < index
  | _ => True

instance (system : FsyncSystem) : DecidablePred system.Cautious := fun step => by
  unfold Cautious
  split <;> infer_instance

/-- After `end_of_append_batch` the batch is synced, in the mode that promises it. -/
def BatchSynced (system : FsyncSystem) : Prop :=
  system.store.logFsyncMode = .fsync → ∀ start count, system.caller = .batchEnded start count →
    ∀ index, start ≤ index → index < start + count → index ∉ system.unsynced

/-- Only the open segment has entries that are not synced, and none of them is reported. -/
structure Durable (system : FsyncSystem) : Prop where
  openLast : system.store.segmentStore.OpenLast
  inOpen : ∀ index ∈ system.unsynced, system.store.segmentStore.InOpen index
  reported : system.store.logFsyncMode = .fsyncParallel → ∀ durable ∈ system.reported,
    durable ≤ system.store.segmentStore.lastLogIndex ∧ ∀ index ∈ system.unsynced, durable < index
  batch : system.BatchSynced

variable {system after : FsyncSystem}

theorem Durable.of_same (durable : system.Durable)
    (sameSegments : after.store.segmentStore = system.store.segmentStore)
    (sameMode : after.store.logFsyncMode = system.store.logFsyncMode)
    (noneReported : after.reported ⊆ system.reported) (fewer : after.unsynced ⊆ system.unsynced)
    (batch : after.BatchSynced) : after.Durable where
  openLast := by
    rw [sameSegments]
    exact durable.openLast
  inOpen := by
    intro index isUnsynced
    rw [sameSegments]
    exact durable.inOpen index (fewer isUnsynced)
  reported := by
    intro parallel index isReported
    rw [sameMode] at parallel
    have before := durable.reported parallel index (noneReported isReported)
    rw [sameSegments]
    exact ⟨before.1, fun other isUnsynced => before.2 other (fewer isUnsynced)⟩
  batch := batch

theorem batchSynced_of_caller (notEnded : ∀ start count, system.caller ≠ .batchEnded start count) :
    system.BatchSynced :=
  fun _ start count ended => absurd ended (notEnded start count)

theorem unsynced_sync (durable : system.Durable) : system.sync.unsynced = ∅ := by
  rw [sync, filter_eq_empty_iff]
  intro index isUnsynced notOpen
  exact notOpen (durable.inOpen index isUnsynced)

theorem Durable.append (durable : system.Durable) (entry : LogEntry) :
    Durable { system with caller := .opening .append entry } :=
  durable.of_same rfl rfl (List.Subset.refl _) (Finset.Subset.refl _)
    (batchSynced_of_caller (by simp))

theorem onSegments_eq {α : Type} (call : StoreCall α) (returns : α → Caller)
    (system : FsyncSystem) :
    ∃ caller, system.onSegments call returns =
        { system with
          store := { system.store with segmentStore := call.leaves system.store.segmentStore }
          caller } ∧
      (caller = .idle ∨ ∃ value, caller = returns value) := by
  simp only [onSegments, StoreCall.leaves]
  cases call system.store.segmentStore with
  | ok value _ => exact ⟨_, rfl, .inr ⟨value, rfl⟩⟩
  | error _ _ => exact ⟨_, rfl, .inl rfl⟩

section

variable (durable : system.Durable)

include durable

theorem Durable.truncate {index : ℕ} (entry : LogEntry)
    (cautious : system.Cautious (.writeAt index entry)) :
    (system.truncate index entry).Durable := by
  rcases onSegments_eq (LogSegmentStore.truncateBefore index) (fun _ => .opening .writeAt entry)
    system with ⟨caller, isAfter, isCaller⟩
  rcases durable.openLast.truncateBefore index with ⟨segments, leaves, openLast, last, inOpen⟩
  rw [leaves] at isAfter
  rw [FsyncSystem.truncate, isAfter]
  refine ⟨openLast, ?_, ?_, batchSynced_of_caller ?_⟩
  · intro other isUnsynced
    simp only [mem_filter] at isUnsynced
    apply inOpen other (by omega)
    exact durable.inOpen other isUnsynced.1
  · intro parallel reportedIndex isReported
    have before := durable.reported parallel reportedIndex isReported
    have isBelow := cautious parallel reportedIndex isReported
    constructor
    · simp only [last, LogSegmentStore.previousIndex]
      rw [if_neg (by omega)]
      omega
    · intro other isUnsynced
      exact before.2 other (mem_filter.mp isUnsynced).1
  · rintro start count rfl
    rcases isCaller with isIdle | ⟨-, isOpening⟩
    · cases isIdle
    · cases isOpening

theorem Durable.openSegment (call : WriteCall) (entry : LogEntry) (createTime : CreateTime)
    (cautious : system.Cautious (.openSegment createTime)) :
    Durable (system.onSegments (LogSegmentStore.openNewSegmentIfNeeded createTime) fun _ =>
      .writing call entry) := by
  rcases onSegments_eq (LogSegmentStore.openNewSegmentIfNeeded createTime)
    (fun _ => .writing call entry) system with ⟨caller, isAfter, isCaller⟩
  rcases durable.openLast.openNewSegmentIfNeeded createTime with
    ⟨segments, leaves, openLast, last, keeps⟩
  rw [leaves] at isAfter
  rw [isAfter]
  refine ⟨openLast, ?_, ?_, batchSynced_of_caller ?_⟩
  · intro index isUnsynced
    have isOpen := durable.inOpen index isUnsynced
    rcases cautious with same | synced
    · simp only [keeps same]
      exact isOpen
    · exact absurd isOpen (synced index isUnsynced)
  · intro parallel reportedIndex isReported
    simp only [last]
    exact durable.reported parallel reportedIndex isReported
  · rintro start count rfl
    rcases isCaller with isIdle | ⟨-, isWriting⟩
    · cases isIdle
    · cases isWriting

theorem Durable.write (call : WriteCall) (entry : LogEntry) :
    (system.write call entry).Durable := by
  cases appends : LogSegmentStore.appendToOpenSegment entry system.store.segmentStore with
  | error _ segments =>
    cases LogSegmentStore.appendToOpenSegment_of_error appends
    rw [FsyncSystem.write, appends]
    exact durable.of_same rfl rfl (List.Subset.refl _) (Subset.refl _)
      (batchSynced_of_caller (by simp))
  | ok index segments =>
    rcases durable.openLast.appendToOpenSegment entry appends with
      ⟨isNext, openLast, last, inOpen, stillOpen⟩
    rw [FsyncSystem.write, appends]
    refine ⟨openLast, ?_, ?_, batchSynced_of_caller (by simp)⟩
    · intro other isUnsynced
      rcases mem_insert.mp isUnsynced with rfl | isOld
      · exact inOpen
      · exact stillOpen other (durable.inOpen other isOld)
    · intro parallel reportedIndex isReported
      have before := durable.reported parallel reportedIndex isReported
      refine ⟨by simp only [last]; omega, ?_⟩
      intro other isUnsynced
      rcases mem_insert.mp isUnsynced with rfl | isOld
      · omega
      · exact before.2 other isOld

theorem Durable.finish (call : WriteCall) (index : ℕ) (entry : LogEntry) :
    (system.finish call index entry).Durable := by
  have same : ∀ store : NuRaftFileLogStore, store.segmentStore = system.store.segmentStore →
      store.logFsyncMode = system.store.logFsyncMode →
      store.diskLastDurableIndex = system.store.diskLastDurableIndex →
      Durable { system with store := store, caller := .idle } := by
    intro store sameSegments sameMode sameDisk
    refine durable.of_same sameSegments sameMode ?_ (Finset.Subset.refl _)
      (batchSynced_of_caller (by simp))
    simp [FsyncSystem.reported, sameDisk]
  cases call with
  | append =>
    apply same
    · simp [NuRaftFileLogStore.finishAppend, apply_ite]
    · simp [NuRaftFileLogStore.finishAppend, apply_ite]
    · simp [NuRaftFileLogStore.finishAppend, apply_ite]
  | writeAt =>
    apply same
    · simp [NuRaftFileLogStore.finishWriteAt, apply_ite]
    · simp [NuRaftFileLogStore.finishWriteAt, apply_ite]
    · simp [NuRaftFileLogStore.finishWriteAt, apply_ite]

theorem Durable.sync : system.sync.Durable := by
  refine durable.of_same rfl rfl (List.Subset.refl _) (filter_subset _ _) ?_
  intro isFsync start count ended index _ _
  rw [unsynced_sync durable]
  exact notMem_empty index

theorem Durable.endOfAppendBatch (start count : ℕ) :
    (system.endOfAppendBatch start count).Durable := by
  rcases NuRaftFileLogStore.endOfAppendBatch_eq count system.store with ⟨_, _, ended⟩
  have same : ∀ after : FsyncSystem, after.store = (system.store.endOfAppendBatch count).2 →
      after.thread = system.thread → after.unsynced ⊆ system.unsynced → after.BatchSynced →
      after.Durable := by
    intro after sameStore sameThread fewer batch
    rw [ended] at sameStore
    refine durable.of_same ?_ ?_ ?_ fewer batch
    · rw [sameStore]
    · rw [sameStore]
    · simp [FsyncSystem.reported, sameStore, sameThread]
  rw [FsyncSystem.endOfAppendBatch]
  split
  · split
    · refine same _ ?_ ?_ ?_ ?_
      · rfl
      · rfl
      · exact filter_subset _ _
      intro _ _ _ _ index _ _ isUnsynced
      have notOpen := (mem_filter.mp isUnsynced).2
      have isOpen := durable.inOpen index (mem_filter.mp isUnsynced).1
      rw [ended] at notOpen
      exact notOpen isOpen
    · exact same _ rfl rfl (Subset.refl _) (batchSynced_of_caller (by simp))
  · rename_i noFlush
    refine same _ ?_ ?_ ?_ ?_
    · rfl
    · rfl
    · exact Subset.refl _
    intro isFsync
    simp only [ended] at isFsync
    simp [NuRaftFileLogStore.endOfAppendBatch, isFsync] at noFlush

theorem Durable.flush (isFlushing : system.thread = .flushing) : system.flush.Durable := by
  have synced := durable.sync
  have noneUnsynced := unsynced_sync durable
  rw [FsyncSystem.flush]
  split
  · refine synced.of_same rfl rfl ?_ (Finset.Subset.refl _) synced.batch
    simp [FsyncSystem.reported, FsyncSystem.sync, isFlushing]
  · rename_i lastFlushIndex _ flushes
    refine ⟨synced.openLast, synced.inOpen, ?_, synced.batch⟩
    intro parallel index isReported
    simp only [FsyncSystem.reported, List.mem_cons, List.not_mem_nil, or_false] at isReported
    rcases isReported with rfl | rfl
    · exact synced.reported parallel _ (by simp [FsyncSystem.reported, FsyncSystem.sync,
        isFlushing])
    · refine ⟨?_, by simp [noneUnsynced]⟩
      exact durable.openLast.flush_le flushes
  · refine durable.of_same rfl rfl ?_ (Finset.Subset.refl _) durable.batch
    simp [FsyncSystem.reported, isFlushing]

theorem Durable.next {step : FsyncStep} (cautious : system.Cautious step)
    (moves : system.Moves step after) : after.Durable := by
  cases moves with
  | append entry => exact durable.append entry
  | writeAt index entry => exact durable.truncate entry cautious
  | openSegment createTime => exact durable.openSegment _ _ createTime cautious
  | write => exact durable.write _ _
  | finish => exact durable.finish _ _ _
  | endOfAppendBatch start count => exact durable.endOfAppendBatch start count
  | wake isWaiting =>
    refine durable.of_same rfl rfl ?_ (Finset.Subset.refl _) durable.batch
    simp [FsyncSystem.reported, isWaiting]
  | flush isFlushing => exact durable.flush isFlushing
  | store isStoring =>
    refine durable.of_same rfl rfl ?_ (Finset.Subset.refl _) durable.batch
    simp [FsyncSystem.reported, isStoring]

end

variable {store : NuRaftFileLogStore}

theorem segmentStore_of_create {order : Enumeration Unit Bytes} {logFsyncMode : FsyncMode}
    {logFsyncInterval maxLogSegmentFileSize : ℕ} {files : Directory}
    (creates : NuRaftFileLogStore.create order logFsyncMode logFsyncInterval maxLogSegmentFileSize
      createTime files = .ok store) :
    LogSegmentStore.init order maxLogSegmentFileSize createTime files = .ok store.segmentStore ∧
      store.diskLastDurableIndex = store.segmentStore.lastLogIndex := by
  rcases Except.bind_eq_ok_iff.mp creates with ⟨segmentStore, starts, reads⟩
  dsimp only at reads
  split at reads
  · cases reads
    exact ⟨starts, rfl⟩
  · rcases Except.bind_eq_ok_iff.mp reads with ⟨lastLogEntry, -, returns⟩
    cases returns
    exact ⟨starts, rfl⟩

theorem durable_start (openLast : store.segmentStore.OpenLast)
    (wholeLog : store.diskLastDurableIndex = store.segmentStore.lastLogIndex) :
    (start store).Durable := by
  refine ⟨openLast, by simp [start], ?_, batchSynced_of_caller (by simp [start])⟩
  simp [start, FsyncSystem.reported, wholeLog]

/--
Whatever the interleaving, the entries up to `last_durable_index` and those of a batch that has
ended are synced, as long as a segment is closed only when it is synced and no entry up to an
index that is reported is overwritten.
-/
theorem durable_entries_synced {order : Enumeration Unit Bytes} {logFsyncMode : FsyncMode}
    {logFsyncInterval maxLogSegmentFileSize : ℕ} {createTime : CreateTime} {files : Directory}
    {store : NuRaftFileLogStore}
    (creates : NuRaftFileLogStore.create order logFsyncMode logFsyncInterval maxLogSegmentFileSize
      createTime files = .ok store)
    (reached : ReachableBy next Cautious (start store) system) :
    (system.store.logFsyncMode = .fsyncParallel → ∀ index, system.store.startIndex ≤ index →
      index < system.store.nextSlot → index ≤ system.store.lastDurableIndex →
      index ∉ system.unsynced) ∧
    (system.store.logFsyncMode = .fsync → ∀ start count, system.caller = .batchEnded start count →
      ∀ index, start ≤ index → index < start + count → index ∉ system.unsynced) := by
  rcases segmentStore_of_create creates with ⟨starts, wholeLog⟩
  have durable : system.Durable := by
    apply reached.invariant Durable
    · exact durable_start (LogSegmentStore.openLast_of_init starts) wholeLog
    · intro before after step durable cautious moves
      exact durable.next cautious (moves_of_next moves)
  refine ⟨?_, durable.batch⟩
  intro parallel index _ _ isDurable isUnsynced
  rw [NuRaftFileLogStore.lastDurableIndex, if_neg (by simp [parallel])] at isDurable
  have isReported : system.store.diskLastDurableIndex ∈ system.reported := by
    rw [FsyncSystem.reported]
    split <;> simp
  have above := (durable.reported parallel _ isReported).2 index isUnsynced
  omega

open LogSegmentStore (sampleTime sampleEntry)

def firstSteps : List FsyncStep := .append (sampleEntry 1) :: writeSteps sampleTime

def secondSteps : List FsyncStep := .append (sampleEntry 2) :: writeSteps sampleTime

def fsyncSteps : List FsyncStep := [.wake, .flush, .store]

def syncedRun : List FsyncStep :=
  firstSteps ++ [.endOfAppendBatch 1 1] ++ fsyncSteps ++ secondSteps ++ [.endOfAppendBatch 2 1]

def syncedBatchRun : List FsyncStep :=
  firstSteps ++ [.endOfAppendBatch 1 1] ++ secondSteps ++ [.endOfAppendBatch 2 1]

theorem durable_entries_synced_syncedRun :
    (∃ system, ReachableBy next Cautious (start (.sample .fsyncParallel)) system ∧
      system.store.nextSlot = 3 ∧ system.store.lastDurableIndex = 1 ∧ system.unsynced = {2} ∧
      1 ∉ system.unsynced) ∧
    ∃ system, ReachableBy next Cautious (start (.sample .fsync)) system ∧
      system.caller = .batchEnded 2 1 ∧ 2 ∉ system.unsynced := by
  constructor
  · refine exists_reached_of (fun system => system.store.logFsyncMode = .fsyncParallel ∧
      system.store.startIndex = 1 ∧ system.store.nextSlot = 3 ∧
      system.store.lastDurableIndex = 1 ∧ system.unsynced = {2}) syncedRun (by decide +kernel) ?_
    rintro system reached ⟨mode, first, next, durable, unsynced⟩
    have synced := durable_entries_synced (NuRaftFileLogStore.create_sample _) reached
    exact ⟨next, durable, unsynced, synced.1 mode 1 (by omega) (by omega) (by omega)⟩
  · refine exists_reached_of (fun system => system.store.logFsyncMode = .fsync ∧
      system.caller = .batchEnded 2 1) syncedBatchRun (by decide +kernel) ?_
    rintro system reached ⟨mode, ended⟩
    have synced := durable_entries_synced (NuRaftFileLogStore.create_sample _) reached
    exact ⟨ended, synced.2 mode 2 1 ended 2 (by omega) (by omega)⟩

def rollOverRun : List FsyncStep :=
  firstSteps ++ secondSteps ++ [.endOfAppendBatch 1 2]

def overwritingRun : List FsyncStep :=
  firstSteps ++ [.endOfAppendBatch 1 1] ++ fsyncSteps ++
    .writeAt 1 (sampleEntry 2) :: writeSteps sampleTime

/--
Entries that are reported to be durable without being synced: the entry of a segment that was
closed before the thread has synced it, the same in the mode that syncs each batch, and an entry
that has overwritten a durable one.
-/
theorem durable_entries_unsynced :
    (∃ system, ReachableBy next (fun _ _ => True) (start (.sample .fsyncParallel)) system ∧
      system.store.startIndex = 1 ∧ system.store.lastDurableIndex = 2 ∧ 1 ∈ system.unsynced) ∧
    (∃ system, ReachableBy next (fun _ _ => True) (start (.sample .fsync)) system ∧
      system.caller = .batchEnded 1 2 ∧ 1 ∈ system.unsynced) ∧
    ∃ system, ReachableBy next (fun _ _ => True) (start (.sample .fsyncParallel)) system ∧
      system.store.startIndex = 1 ∧ system.store.nextSlot = 2 ∧
      system.store.lastDurableIndex = 1 ∧ 1 ∈ system.unsynced := by
  refine ⟨?_, ?_, ?_⟩
  · exact exists_reached (rollOverRun ++ fsyncSteps) (by decide +kernel)
  · exact exists_reached rollOverRun (by decide +kernel)
  · exact exists_reached overwritingRun (by decide +kernel)

end FsyncSystem

end RaftKeeper
