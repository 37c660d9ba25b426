import RaftKeeper.Log.SegmentStore

/-!
# The log store of a Raft server

`NuRaftFileLogStore`: the segments, a cache of the last entries that were appended, the last
entry, and the bookkeeping of `fdatasync`. The cache has 2^16 slots; an entry is in the slot of
the low bits of its index. `pack` and the bytes of a pack are left out: `apply_pack` is given
the entries that NuRaft has decoded.
-/

namespace RaftKeeper

open NuRaft (LogEntry)

/-- When entries are synced. -/
inductive FsyncMode
  | fsyncParallel
  | fsync
  | fsyncBatch
deriving DecidableEq

def appLog : UInt8 := 1

/-- The cache of the latest entries, a ring of `MAX_VECTOR_SIZE` slots. -/
structure LogEntryQueue where
  batchIndex : ℕ
  maxIndex : ℕ
  entryVec : Dict ℕ LogEntry
deriving DecidableEq

namespace LogEntryQueue

def bitSize : ℕ := 16

def maxVectorSize : ℕ := 65536

def empty : LogEntryQueue := ⟨0, 0, ∅⟩

/-- `index & (MAX_VECTOR_SIZE - 1)`. -/
def slot (index : ℕ) : ℕ := index % maxVectorSize

def getEntry (queue : LogEntryQueue) (index : ℕ) : Option LogEntry :=
  if queue.maxIndex < index ∨ maxVectorSize ≤ queue.maxIndex - index then none
  else if index >>> bitSize = queue.batchIndex ∨ index >>> bitSize = queue.batchIndex - 1 then
    queue.entryVec.lookup (slot index)
  else none

def putEntry (index : ℕ) (entry : LogEntry) (queue : LogEntryQueue) : LogEntryQueue where
  batchIndex := max queue.batchIndex (index >>> bitSize)
  maxIndex := max queue.maxIndex index
  entryVec := queue.entryVec.insert (slot index) entry

end LogEntryQueue

/-- What `entry_at_ext` returns. -/
structure LogEntryWithVersion where
  version : LogVersion
  entry : LogEntry
deriving DecidableEq

/-- The log store of NuRaft: the segments, a cache, and what is known to be durable. -/
structure NuRaftFileLogStore where
  segmentStore : LogSegmentStore
  logQueue : LogEntryQueue
  lastLogEntry : Option LogEntry
  logFsyncMode : FsyncMode
  logFsyncInterval : ℕ
  toFlushCount : ℕ
  diskLastDurableIndex : ℕ
  parallelFsyncEvent : Bool
deriving DecidableEq

abbrev FileCall := EStateM LogError NuRaftFileLogStore

namespace NuRaftFileLogStore

def dummyEntry : LogEntry := ⟨0, appLog, [], by decide⟩

def create (order : Enumeration Unit Bytes) (logFsyncMode : FsyncMode) (logFsyncInterval : ℕ)
    (maxLogSegmentFileSize : ℕ) (createTime : CreateTime) (files : Directory) :
    Except LogError NuRaftFileLogStore := do
  let segmentStore ← LogSegmentStore.init order maxLogSegmentFileSize createTime files
  let lastLogEntry ←
    if segmentStore.lastLogIndex < 1 then pure (some dummyEntry)
    else segmentStore.getEntry segmentStore.lastLogIndex
  pure
    { segmentStore
      logQueue := .empty
      lastLogEntry
      logFsyncMode
      logFsyncInterval
      toFlushCount := 0
      diskLastDurableIndex := segmentStore.lastLogIndex
      parallelFsyncEvent := false }

def onSegments {α : Type} (call : StoreCall α) : FileCall α := fun store =>
  match call store.segmentStore with
  | .ok value after => .ok value { store with segmentStore := after }
  | .error error after => .error error { store with segmentStore := after }

def nextSlot (store : NuRaftFileLogStore) : ℕ := store.segmentStore.lastLogIndex + 1

def startIndex (store : NuRaftFileLogStore) : ℕ := store.segmentStore.firstLogIndex

def lastEntry (store : NuRaftFileLogStore) : LogEntry := store.lastLogEntry.getD dummyEntry

/-- Wake the thread that calls `fdatasync`, in the parallel mode. -/
def setEvent (store : NuRaftFileLogStore) : NuRaftFileLogStore :=
  if store.logFsyncMode = .fsyncParallel then { store with parallelFsyncEvent := true } else store

@[simp]
theorem setEvent_eq (store : NuRaftFileLogStore) :
    store.setEvent = { store with
      parallelFsyncEvent :=
        decide (store.logFsyncMode = .fsyncParallel) || store.parallelFsyncEvent } := by
  rw [setEvent]
  split
  next isParallel => rw [decide_eq_true isParallel, Bool.true_or]
  next notParallel => rw [decide_eq_false notParallel, Bool.false_or]

def finishAppend (index : ℕ) (entry : LogEntry) (store : NuRaftFileLogStore) : NuRaftFileLogStore :=
  let cached :=
    { store with
      logQueue := store.logQueue.putEntry index entry
      lastLogEntry := some entry }
  if entry.valType ≠ appLog then cached.setEvent else cached

def append (createTime : CreateTime) (entry : LogEntry) : FileCall ℕ := do
  let index ← onSegments (LogSegmentStore.appendEntry createTime entry)
  modify (finishAppend index entry)
  pure index

def finishWriteAt (entry : LogEntry) (store : NuRaftFileLogStore) : NuRaftFileLogStore :=
  let cached := { store with logQueue := .empty, lastLogEntry := some entry }
  if entry.valType ≠ appLog then cached.setEvent else cached

def writeAt (createTime : CreateTime) (index : ℕ) (entry : LogEntry) : FileCall Unit := do
  onSegments (LogSegmentStore.writeAt createTime index entry)
  modify (finishWriteAt entry)

def applyPackLoop : ℕ → List (CreateTime × LogEntry) → StoreCall Unit
  | _, [] => pure ()
  | index, (createTime, entry) :: rest => do
      LogSegmentStore.writeAt createTime index entry
      applyPackLoop (index + 1) rest

def applyPack (index : ℕ) (logs : List (CreateTime × LogEntry)) : FileCall Unit := do
  onSegments (applyPackLoop index logs)
  modify setEvent

def compact (lastLogIndex : ℕ) (store : NuRaftFileLogStore) : NuRaftFileLogStore :=
  { store with
    segmentStore := store.segmentStore.removeSegment (lastLogIndex + 1)
    logQueue := .empty }

/-- `entry_at`; `none` is a null pointer. -/
def entryAt (store : NuRaftFileLogStore) (index : ℕ) : Except LogError (Option LogEntry) :=
  match store.logQueue.getEntry index with
  | some entry => .ok (some entry)
  | none => store.segmentStore.getEntry index

/-- The loop of `log_entries_version_ext`, with the size of what is there already; `none` is a null
pointer. -/
def logEntriesLoop (store : NuRaftFileLogStore) (batchSizeHintInBytes : ℤ) :
    List ℕ → ℕ → Except LogError (Option (List LogEntryWithVersion))
  | [], _ => .ok (some [])
  | index :: rest, getSize =>
    match store.entryAt index with
    | .error error => .error error
    | .ok none => .ok none
    | .ok (some entry) =>
      let size := getSize + (entry.data.length + 8 + 1)
      if 0 < batchSizeHintInBytes ∧ batchSizeHintInBytes < size then .ok (some [])
      else do
        let version ← store.segmentStore.getVersion index
        let loaded ← store.logEntriesLoop batchSizeHintInBytes rest size
        pure (loaded.map (⟨version, entry⟩ :: ·))

def logEntriesVersionExt (store : NuRaftFileLogStore) (start stop : ℕ)
    (batchSizeHintInBytes : ℤ) : Except LogError (Option (List LogEntryWithVersion)) :=
  store.logEntriesLoop batchSizeHintInBytes (List.range' start (stop - start)) 0

def termOf (entry : Option LogEntry) : UInt64 := (entry.map (·.term)).getD 0

def termAt (store : NuRaftFileLogStore) (index : ℕ) : Except LogError UInt64 :=
  termOf <$> store.entryAt index

/-- `last_durable_index`, which NuRaft takes for what is on disk. -/
def lastDurableIndex (store : NuRaftFileLogStore) : ℕ :=
  if store.logFsyncMode ≠ .fsyncParallel then store.nextSlot - 1 else store.diskLastDurableIndex

/-- What `end_of_append_batch` does besides a flush, and whether it flushes. -/
def endOfAppendBatch (count : ℕ) (store : NuRaftFileLogStore) : Bool × NuRaftFileLogStore :=
  match store.logFsyncMode with
  | .fsyncParallel => (false, store.setEvent)
  | .fsyncBatch =>
    if store.logFsyncInterval ≤ store.toFlushCount + count then
      (true, { store with toFlushCount := 0 })
    else (false, { store with toFlushCount := store.toFlushCount + count })
  | .fsync => (true, store)

theorem endOfAppendBatch_eq (count : ℕ) (store : NuRaftFileLogStore) :
    ∃ toFlushCount parallelFsyncEvent, (store.endOfAppendBatch count).2 =
      { store with toFlushCount, parallelFsyncEvent } := by
  rw [endOfAppendBatch]
  repeat' split
  · exact ⟨_, _, setEvent_eq store⟩
  · exact ⟨_, _, rfl⟩
  · exact ⟨_, _, rfl⟩
  · exact ⟨_, _, rfl⟩

end NuRaftFileLogStore

end RaftKeeper
