import RaftKeeper.Log.FileLogStore
import RaftKeeper.Log.Reopening

/-!
# The cache of the log store

What the cache answers for an index is what the segments hold there, and the last entry is the one
at the last index. Only `apply_pack` writes to the segments behind the back of both. The cache has
the last 2^16 entries at most, so that a slot determines the index of its entry.
-/

namespace RaftKeeper

open IndexedLog List LogEntryQueue NuRaftFileLogStore

open NuRaft (LogEntry)

namespace LogEntryQueue

/-- Every entry in the cache is the entry of the log at one of the last indexes. -/
structure Caches (queue : LogEntryQueue) (log : IndexedLog LogEntry) : Prop where
  below : queue.maxIndex < log.next
  holds : ∀ position entry, queue.entryVec.lookup position = some entry →
    queue.maxIndex + 1 = log.next ∧ ∃ index, slot index = position ∧ index ≤ queue.maxIndex ∧
      queue.maxIndex < index + maxVectorSize ∧ log.get index = some entry

variable {log : IndexedLog LogEntry}

theorem caches_empty (positive : 0 < log.first) : empty.Caches log where
  below := by
    simp [empty, IndexedLog.next]
    omega
  holds := by
    intro position entry found
    simp [empty] at found

variable {queue : LogEntryQueue}

theorem Caches.getEntry (caches : queue.Caches log) {index : ℕ} {entry : LogEntry}
    (found : queue.getEntry index = some entry) : log.get index = some entry := by
  rw [LogEntryQueue.getEntry] at found
  split at found
  · cases found
  · rename_i inside
    split at found
    · rcases caches.holds _ _ found with ⟨-, other, sameSlot, notAbove, recent, isEntry⟩
      -- Two of the last 2^16 indexes with the same low bits are equal.
      have same : other = index := by
        simp only [slot, maxVectorSize] at sameSlot recent inside
        omega
      rw [← same]
      exact isEntry
    · cases found

theorem Caches.putEntry (caches : queue.Caches log) (entry : LogEntry) :
    (queue.putEntry log.next entry).Caches (log.append entry) := by
  have below := caches.below
  have newMax : (queue.putEntry log.next entry).maxIndex = log.next := by
    simp only [LogEntryQueue.putEntry]
    omega
  constructor
  · rw [newMax, next_append]
    omega
  · intro position other found
    rw [newMax, next_append]
    refine ⟨rfl, ?_⟩
    simp only [LogEntryQueue.putEntry, Finmap.lookup_insert_ite] at found
    split at found
    · rename_i isNew
      cases found
      refine ⟨log.next, isNew.symm, le_rfl, ?_, ?_⟩
      · simp [maxVectorSize]
      · rw [get_append, if_pos rfl]
    · rename_i isOld
      rcases caches.holds _ _ found with ⟨isLast, index, rfl, notAbove, recent, isEntry⟩
      refine ⟨index, rfl, by omega, ?_, ?_⟩
      · simp only [slot, maxVectorSize] at isOld recent ⊢
        omega
      · rw [get_append, if_neg (by omega)]
        exact isEntry

end LogEntryQueue

/-- The calls that change the cache. -/
inductive QueueCall
  | putEntry (index : ℕ) (entry : LogEntry)
  | clear

/-- The queue with what was put into it since it was cleared. -/
structure QueueHistory where
  queue : LogEntryQueue := .empty
  put : List (ℕ × LogEntry) := []

namespace QueueHistory

def next (history : QueueHistory) : QueueCall → Option QueueHistory
  | .putEntry index entry =>
    some ⟨history.queue.putEntry index entry, history.put ++ [(index, entry)]⟩
  | .clear => some {}

/-- The first index after a clear is any, and the others follow one another. -/
def Consecutive (history : QueueHistory) : QueueCall → Prop
  | .putEntry index _ => ∀ last ∈ history.put.getLast?, index = last.1 + 1
  | .clear => True

/-- The slots hold exactly the last entries that were put. -/
structure Recent (history : QueueHistory) : Prop where
  start : history.put = [] → history.queue = .empty
  last : ∀ last ∈ history.put.getLast?,
    history.queue.maxIndex = last.1 ∧ history.queue.batchIndex = last.1 >>> bitSize
  below : ∀ entry ∈ history.put, entry.1 ≤ history.queue.maxIndex
  stored : ∀ position entry, history.queue.entryVec.lookup position = some entry →
    ∃ index, slot index = position ∧ (index, entry) ∈ history.put ∧
      history.queue.maxIndex < index + maxVectorSize
  found : ∀ index entry, (index, entry) ∈ history.put →
    history.queue.maxIndex < index + maxVectorSize →
      history.queue.entryVec.lookup (slot index) = some entry

theorem recent_start : Recent {} := by
  constructor <;> simp [empty]

variable {history : QueueHistory}

theorem Recent.putEntry (recent : history.Recent) {index : ℕ} {entry : LogEntry}
    (follows : ∀ last ∈ history.put.getLast?, index = last.1 + 1) :
    Recent ⟨history.queue.putEntry index entry, history.put ++ [(index, entry)]⟩ := by
  -- one more than all indexes before, if there are any
  have newest : (∀ old ∈ history.put, index = history.queue.maxIndex + 1) ∧
      max history.queue.maxIndex index = index ∧
      max history.queue.batchIndex (index >>> bitSize) = index >>> bitSize := by
    cases isLast : history.put.getLast? with
    | none =>
      have nothing := getLast?_eq_none_iff.mp isLast
      rw [recent.start nothing, nothing]
      simp [empty]
    | some last =>
      rcases recent.last last isLast with ⟨isMax, isBatch⟩
      have isNext := follows last isLast
      simp only [isBatch, bitSize, Nat.shiftRight_eq_div_pow]
      refine ⟨fun _ _ => by omega, by omega, max_eq_right (Nat.div_le_div_right (by omega))⟩
  rcases newest with ⟨isNext, isMax, isBatch⟩
  constructor
  · simp
  · simp [LogEntryQueue.putEntry, isMax, isBatch]
  · simp only [LogEntryQueue.putEntry, isMax, forall_mem_append, forall_mem_singleton]
    refine ⟨fun old isOld => ?_, le_refl _⟩
    have bound := recent.below old isOld
    have isNext := isNext old isOld
    omega
  · intro position other stored
    simp only [LogEntryQueue.putEntry, isMax, Finmap.lookup_insert_ite] at stored ⊢
    split at stored
    next isNew =>
      cases stored
      exact ⟨index, isNew.symm, by simp, by simp [maxVectorSize]⟩
    next isOther =>
      rcases recent.stored _ _ stored with ⟨old, rfl, isOld, inside⟩
      refine ⟨old, rfl, mem_append_left _ isOld, ?_⟩
      have isNext := isNext _ isOld
      simp only [slot, maxVectorSize] at isOther inside ⊢
      omega
  · intro old other isPut inside
    simp only [LogEntryQueue.putEntry, isMax, Finmap.lookup_insert_ite] at inside ⊢
    rcases mem_append.mp isPut with isOld | isNew
    · have bound := recent.below _ isOld
      have isNext := isNext _ isOld
      rw [if_neg (by simp only [slot, maxVectorSize] at inside ⊢; omega)]
      exact recent.found old other isOld (by omega)
    · cases mem_singleton.mp isNew
      exact if_pos rfl

theorem Recent.next {call : QueueCall} {after : QueueHistory} (recent : history.Recent)
    (consecutive : history.Consecutive call) (moves : history.next call = some after) :
    after.Recent := by
  cases call with
  | putEntry index entry =>
    cases moves
    exact recent.putEntry consecutive
  | clear =>
    cases moves
    exact recent_start

/-- An index of the queue is one of the two batches it knows. -/
theorem Recent.getEntry (recent : history.Recent) {index : ℕ} {entry : LogEntry}
    (isPut : (index, entry) ∈ history.put)
    (inside : history.queue.maxIndex < index + maxVectorSize) :
    history.queue.getEntry index = history.queue.entryVec.lookup (slot index) := by
  have below := recent.below _ isPut
  cases isLast : history.put.getLast? with
  | none => simp [getLast?_eq_none_iff.mp isLast] at isPut
  | some last =>
    rcases recent.last last isLast with ⟨isMax, isBatch⟩
    simp only [maxVectorSize] at inside
    rw [LogEntryQueue.getEntry, if_neg (by simp only [maxVectorSize]; omega), if_pos]
    rw [isBatch, ← isMax]
    simp only [bitSize, Nat.shiftRight_eq_div_pow]
    omega

/-- What the queue returns was put at that index, and the last `maxVectorSize` entries are there. -/
theorem getEntry_returns_put (reached : ReachableBy next Consecutive {} history) (index : ℕ)
    (entry : LogEntry) :
    (history.queue.getEntry index = some entry → (index, entry) ∈ history.put) ∧
      ((index, entry) ∈ history.put →
        (∀ last ∈ history.put.getLast?, last.1 < index + maxVectorSize) →
          history.queue.getEntry index = some entry) := by
  have recent := reached.invariant Recent recent_start Recent.next
  constructor
  · intro isFound
    rw [LogEntryQueue.getEntry] at isFound
    split at isFound
    · cases isFound
    next inside =>
      split at isFound
      · rcases recent.stored _ _ isFound with ⟨other, sameSlot, isPut, isRecent⟩
        have below := recent.below _ isPut
        have same : other = index := by
          simp only [slot, maxVectorSize] at sameSlot isRecent inside below
          omega
        rwa [same] at isPut
      · cases isFound
  · intro isPut isRecent
    cases isLast : history.put.getLast? with
    | none => simp [getLast?_eq_none_iff.mp isLast] at isPut
    | some last =>
      have inside := isRecent last isLast
      rw [← (recent.last last isLast).1] at inside
      rw [recent.getEntry isPut inside]
      exact recent.found index entry isPut inside

instance (history : QueueHistory) : DecidablePred history.Consecutive := fun call => by
  unfold Consecutive
  split <;> infer_instance

theorem getEntry_returns_put_nextBatch :
    ∃ history, ReachableBy next Consecutive {} history ∧
      history.queue.getEntry 65535 = some (LogSegmentStore.sampleEntry 2) := by
  refine exists_reached_of (fun history => (65535, LogSegmentStore.sampleEntry 2) ∈ history.put ∧
      ∀ last ∈ history.put.getLast?, last.1 < 65535 + maxVectorSize)
    [.putEntry 7 (LogSegmentStore.sampleEntry 1), .clear,
      .putEntry 65535 (LogSegmentStore.sampleEntry 2),
      .putEntry 65536 (LogSegmentStore.sampleEntry 3)] (by decide) ?_
  rintro history reached ⟨isPut, isRecent⟩
  exact (getEntry_returns_put reached _ _).2 isPut isRecent

end QueueHistory

/-- The calls of NuRaft that change the log store. -/
inductive FileLogCall
  | append (createTime : CreateTime) (entry : LogEntry)
  | writeAt (createTime : CreateTime) (index : ℕ) (entry : LogEntry)
  | applyPack (index : ℕ) (logs : List (CreateTime × LogEntry))
  | compact (lastLogIndex : ℕ)

namespace NuRaftFileLogStore

def next (store : NuRaftFileLogStore) : FileLogCall → Option NuRaftFileLogStore
  | .append createTime entry =>
    match append createTime entry store with
    | .ok _ after => some after
    | .error _ _ => none
  | .writeAt createTime index entry =>
    match writeAt createTime index entry store with
    | .ok _ after => some after
    | .error _ _ => none
  | .applyPack index logs =>
    match applyPack index logs store with
    | .ok _ after => some after
    | .error _ _ => none
  | .compact lastLogIndex => some (store.compact lastLogIndex)

/-- The indexes that are written to are those of the log or the next one. -/
def InRange (store : NuRaftFileLogStore) : FileLogCall → Prop
  | .writeAt _ index _ => store.startIndex ≤ index ∧ index ≤ store.nextSlot
  | .applyPack index _ => store.startIndex ≤ index ∧ index ≤ store.nextSlot
  | _ => True

/-- No pack with entries is applied, and the segments stay a log. -/
def Coherently (store : NuRaftFileLogStore) : FileLogCall → Prop
  | .append _ _ => True
  | .writeAt _ index _ => ¬ store.segmentStore.ReopensSmall (index - 1)
  | .applyPack _ logs => logs = []
  | .compact lastLogIndex => ¬ store.segmentStore.CutsLast (lastLogIndex + 1)

instance (store : NuRaftFileLogStore) : (call : FileLogCall) → Decidable (store.InRange call)
  | .append _ _ => .isTrue trivial
  | .writeAt _ _ _ => inferInstanceAs (Decidable (_ ∧ _))
  | .applyPack _ _ => inferInstanceAs (Decidable (_ ∧ _))
  | .compact _ => .isTrue trivial

instance (store : NuRaftFileLogStore) : (call : FileLogCall) → Decidable (store.Coherently call)
  | .append _ _ => .isTrue trivial
  | .writeAt _ _ _ => inferInstanceAs (Decidable (¬ _))
  | .applyPack _ logs => inferInstanceAs (Decidable (logs = []))
  | .compact _ => inferInstanceAs (Decidable (¬ _))

/-- The segments hold the log, and the cache and the last entry agree with it. -/
structure Coherent (store : NuRaftFileLogStore) (log : IndexedLog LogEntry) : Prop where
  represents : store.segmentStore.Represents log
  settled : store.segmentStore.Settled
  caches : store.logQueue.Caches log
  last : log.entries ≠ [] → store.lastLogEntry = log.entries.getLast?

variable {store : NuRaftFileLogStore} {log : IndexedLog LogEntry}

section

variable (coherent : store.Coherent log)

include coherent

theorem Coherent.setEvent : store.setEvent.Coherent log where
  represents := by simpa using coherent.represents
  settled := by simpa using coherent.settled
  caches := by simpa using coherent.caches
  last := by simpa using coherent.last

theorem Coherent.append (createTime : CreateTime) (entry : LogEntry) :
    ∃ after, NuRaftFileLogStore.append createTime entry store = .ok store.nextSlot after ∧
      after.Coherent (log.append entry) := by
  rcases coherent.represents.appendEntry coherent.settled createTime entry with
    ⟨after, appends, yields⟩
  have next : store.segmentStore.lastLogIndex + 1 = log.next := coherent.represents.last
  refine ⟨({ store with segmentStore := after }).finishAppend store.nextSlot entry, ?_, ?_⟩
  · simp only [NuRaftFileLogStore.append, bind, EStateM.bind, onSegments, appends,
      EStateM.modify_apply, pure, EStateM.pure]
    rfl
  · have cached : Coherent
        { store with
          segmentStore := after
          logQueue := store.logQueue.putEntry store.nextSlot entry
          lastLogEntry := some entry } (log.append entry) := by
      refine ⟨yields.represents, yields.settled, ?_, ?_⟩
      · rw [nextSlot, next]
        exact coherent.caches.putEntry entry
      · intro _
        simp [IndexedLog.append]
    rw [finishAppend]
    split
    · exact cached.setEvent
    · exact cached

theorem Coherent.writeAt (createTime : CreateTime) {index : ℕ} (entry : LogEntry)
    (inRange : store.startIndex ≤ index ∧ index ≤ store.nextSlot)
    (large : ¬ store.segmentStore.ReopensSmall (index - 1)) :
    ∃ after, writeAt createTime index entry store = .ok () after ∧
      after.Coherent (log.writeAt index entry) := by
  rw [startIndex, coherent.represents.first, nextSlot, coherent.represents.last] at inRange
  rcases coherent.represents.writeAt coherent.settled createTime entry inRange.1 inRange.2
    large with ⟨after, writes, yields⟩
  refine ⟨({ store with segmentStore := after }).finishWriteAt entry, ?_, ?_⟩
  · simp only [NuRaftFileLogStore.writeAt, bind, EStateM.bind, onSegments, writes,
      EStateM.modify_apply]
  · have cached : Coherent
        { store with
          segmentStore := after
          logQueue := .empty
          lastLogEntry := some entry } (log.writeAt index entry) := by
      refine ⟨yields.represents, yields.settled, ?_, ?_⟩
      · exact LogEntryQueue.caches_empty coherent.represents.positive
      · intro _
        simp [IndexedLog.writeAt, IndexedLog.append]
    rw [finishWriteAt]
    split
    · exact cached.setEvent
    · exact cached

theorem Coherent.applyPack (index : ℕ) :
    ∃ after, applyPack index [] store = .ok () after ∧ after.Coherent log :=
  ⟨store.setEvent, rfl, coherent.setEvent⟩

theorem Coherent.compact {lastLogIndex : ℕ}
    (notCut : ¬ store.segmentStore.CutsLast (lastLogIndex + 1)) :
    ∃ logAfter, (store.compact lastLogIndex).Coherent logAfter := by
  have represents := coherent.represents
  have first := represents.first
  rcases Nat.lt_or_ge store.segmentStore.firstLogIndex (lastLogIndex + 1) with below | above
  · rcases Nat.lt_or_ge store.segmentStore.lastLogIndex (lastLogIndex + 1) with all | inside
    · have yields := represents.removeSegment_all all (first ▸ below)
      refine ⟨_, yields.represents, yields.settled, ?_, fun nonempty => absurd rfl nonempty⟩
      exact caches_empty yields.represents.positive
    · rcases represents.removeSegment_some coherent.settled (first ▸ below) inside
        (fun single => notCut ⟨below, single⟩) with ⟨kept, -, -, yields, -⟩
      refine ⟨_, yields.represents, yields.settled, ?_, ?_⟩
      · exact caches_empty yields.represents.positive
      · intro nonempty
        have notAll : ¬ log.entries.length ≤ kept - log.first :=
          fun short => nonempty (drop_eq_nil_of_le short)
        have someEntries : log.entries ≠ [] := by
          rintro isEmpty
          simp [isEmpty] at notAll
        rw [keepFrom, getLast?_drop, if_neg notAll]
        exact coherent.last someEntries
  · have same : store.segmentStore.removeSegment (lastLogIndex + 1) = store.segmentStore :=
      if_pos above
    refine ⟨log, ?_, ?_, caches_empty represents.positive, coherent.last⟩
    · simpa only [NuRaftFileLogStore.compact, same] using represents
    · simpa only [NuRaftFileLogStore.compact, same] using coherent.settled

theorem Coherent.next {call : FileLogCall} (inRange : store.InRange call)
    (coherently : store.Coherently call) :
    ∃ after, store.next call = some after ∧ ∃ logAfter, after.Coherent logAfter := by
  cases call with
  | append createTime entry =>
    rcases coherent.append createTime entry with ⟨after, appends, coherentAfter⟩
    exact ⟨after, by simp only [NuRaftFileLogStore.next, appends], _, coherentAfter⟩
  | writeAt createTime index entry =>
    rcases coherent.writeAt createTime entry inRange coherently with
      ⟨after, writes, coherentAfter⟩
    exact ⟨after, by simp only [NuRaftFileLogStore.next, writes], _, coherentAfter⟩
  | applyPack index logs =>
    cases (coherently : logs = [])
    rcases coherent.applyPack index with ⟨after, applies, coherentAfter⟩
    exact ⟨after, by simp only [NuRaftFileLogStore.next, applies], _, coherentAfter⟩
  | compact lastLogIndex => exact ⟨_, rfl, coherent.compact coherently⟩

theorem Coherent.entryAt (index : ℕ) : store.entryAt index = store.segmentStore.getEntry index := by
  rw [NuRaftFileLogStore.entryAt]
  split
  · rename_i entry found
    rw [coherent.represents.getEntry, coherent.caches.getEntry found]
  · rfl

theorem Coherent.lastEntry (stored : store.startIndex < store.nextSlot) :
    store.segmentStore.getEntry (store.nextSlot - 1) = .ok (some store.lastEntry) := by
  have first := coherent.represents.first
  have last := coherent.represents.last
  rw [startIndex, nextSlot] at stored
  have nonempty : log.entries ≠ [] := by
    intro isEmpty
    rw [IndexedLog.next, isEmpty, length_nil] at last
    omega
  rw [nextSlot, last, coherent.represents.getEntry, get_last nonempty,
    NuRaftFileLogStore.lastEntry, coherent.last nonempty, getLast?_eq_some_getLast nonempty]
  rfl

end

/-- The directory is empty, or a store with entries has left it. -/
def HoldsLog (files : Directory) : Prop :=
  files = ∅ ∨ ∃ (previous : LogSegmentStore) (log : IndexedLog LogEntry),
    previous.Represents log ∧ previous.Settled ∧ previous.NonemptyClosed ∧ log.entries ≠ [] ∧
      previous.files = files

theorem HoldsLog.init {files : Directory} (holdsLog : HoldsLog files)
    (order : Enumeration Unit Bytes) {maxLogSegmentFileSize : ℕ}
    (room : magicAndVersionSize ≤ maxLogSegmentFileSize) (createTime : CreateTime) :
    ∃ segmentStore log,
      LogSegmentStore.init order maxLogSegmentFileSize createTime files = .ok segmentStore ∧
      segmentStore.Represents log ∧ segmentStore.Settled := by
  rcases holdsLog with rfl | ⟨previous, log, represents, settled, nonemptyClosed, nonempty, rfl⟩
  · rcases LogSegmentStore.init_empty order maxLogSegmentFileSize createTime with
      ⟨after, starts, represents, settled, -⟩
    exact ⟨after, _, starts, represents, settled⟩
  · rcases represents.init_of_settled settled nonemptyClosed nonempty order room createTime with
      ⟨after, starts, represented, settledAfter, -⟩
    exact ⟨after, log, starts, represented, settledAfter⟩

theorem coherent_start {segmentStore : LogSegmentStore} (represents : segmentStore.Represents log)
    (settled : segmentStore.Settled) (lastLogEntry : Option LogEntry)
    (last : log.entries ≠ [] → lastLogEntry = log.entries.getLast?) (logFsyncMode : FsyncMode)
    (logFsyncInterval : ℕ) :
    Coherent
      { segmentStore
        logQueue := .empty
        lastLogEntry
        logFsyncMode
        logFsyncInterval
        toFlushCount := 0
        diskLastDurableIndex := segmentStore.lastLogIndex
        parallelFsyncEvent := false } log :=
  ⟨represents, settled, caches_empty represents.positive, last⟩

theorem HoldsLog.create {files : Directory} (holdsLog : HoldsLog files)
    (order : Enumeration Unit Bytes) (logFsyncMode : FsyncMode) (logFsyncInterval : ℕ)
    {maxLogSegmentFileSize : ℕ} (room : magicAndVersionSize ≤ maxLogSegmentFileSize)
    (createTime : CreateTime) :
    ∃ start log,
      create order logFsyncMode logFsyncInterval maxLogSegmentFileSize createTime
        files = .ok start ∧ start.Coherent log := by
  rcases holdsLog.init order room createTime with ⟨segmentStore, log, starts, represents, settled⟩
  have positive := represents.positive
  have last := represents.last
  by_cases isEmpty : segmentStore.lastLogIndex < 1
  · refine ⟨_, log, ?_,
      coherent_start represents settled (some dummyEntry) ?_ logFsyncMode logFsyncInterval⟩
    · simp only [NuRaftFileLogStore.create, starts, bind, Except.bind, if_pos isEmpty]
      rfl
    · intro nonempty
      have length := length_pos_iff.mpr nonempty
      rw [IndexedLog.next] at last
      omega
  · refine ⟨_, log, ?_, coherent_start represents settled
      (log.get segmentStore.lastLogIndex) ?_ logFsyncMode logFsyncInterval⟩
    · simp only [NuRaftFileLogStore.create, starts, bind, Except.bind, if_neg isEmpty,
        represents.getEntry]
      rfl
    · intro nonempty
      rw [← get_last nonempty, ← last, Nat.add_sub_cancel]

/--
Whatever calls have been made, the cache answers as the segments do and the last entry is the
one at the last index, as long as no pack with entries is applied and the segments stay a log.
-/
theorem entryAt_eq_getEntry {files : Directory} {order : Enumeration Unit Bytes}
    {logFsyncMode : FsyncMode} {logFsyncInterval maxLogSegmentFileSize : ℕ}
    {createTime : CreateTime} {start store : NuRaftFileLogStore} (holdsLog : HoldsLog files)
    (room : magicAndVersionSize ≤ maxLogSegmentFileSize)
    (starts : create order logFsyncMode logFsyncInterval maxLogSegmentFileSize createTime files =
      .ok start)
    (reached : ReachableBy next (fun store call => store.InRange call ∧ store.Coherently call)
      start store) :
    (∀ index, store.startIndex ≤ index → index < store.nextSlot →
      store.entryAt index = store.segmentStore.getEntry index ∧
        store.termAt index = termOf <$> store.segmentStore.getEntry index) ∧
    (store.startIndex < store.nextSlot →
      store.segmentStore.getEntry (store.nextSlot - 1) = .ok (some store.lastEntry)) ∧
    ∀ call, store.InRange call → store.Coherently call → (store.next call).isSome := by
  have invariant : ∃ log, store.Coherent log := by
    apply reached.invariant fun store => ∃ log, store.Coherent log
    · rcases holdsLog.create order logFsyncMode logFsyncInterval room createTime with
        ⟨_, log, creates, coherent⟩
      rw [starts] at creates
      cases creates
      exact ⟨log, coherent⟩
    · rintro before after call ⟨log, coherent⟩ ⟨inRange, coherently⟩ moves
      rcases coherent.next inRange coherently with ⟨_, movesTo, coherentAfter⟩
      rw [moves] at movesTo
      cases movesTo
      exact coherentAfter
  rcases invariant with ⟨log, coherent⟩
  refine ⟨?_, coherent.lastEntry, ?_⟩
  · intro index _ _
    refine ⟨coherent.entryAt index, ?_⟩
    rw [termAt, coherent.entryAt]
  · intro call inRange coherently
    rcases coherent.next inRange coherently with ⟨_, moves, -⟩
    rw [moves]
    rfl

def sample (logFsyncMode : FsyncMode) : NuRaftFileLogStore where
  segmentStore := LogSegmentStore.sampleStart
  logQueue := .empty
  lastLogEntry := some dummyEntry
  logFsyncMode
  logFsyncInterval := 1000
  toFlushCount := 0
  diskLastDurableIndex := 0
  parallelFsyncEvent := false

open LogSegmentStore (sampleTime sampleEntry sampleOrder)

theorem create_sample (logFsyncMode : FsyncMode) :
    create sampleOrder logFsyncMode 1000 9 sampleTime ∅ = .ok (sample logFsyncMode) := by
  simp only [create, LogSegmentStore.init_sampleStart, bind, Except.bind]
  rfl

def coherentRun : List FileLogCall :=
  [.append sampleTime (sampleEntry 1), .append sampleTime (sampleEntry 2),
    .append sampleTime (sampleEntry 3), .writeAt sampleTime 3 (sampleEntry 4), .compact 1,
    .append sampleTime (sampleEntry 5), .applyPack 3 []]

theorem entryAt_eq_getEntry_coherentRun :
    ∃ store, ReachableBy next (fun store call => store.InRange call ∧ store.Coherently call)
        (sample .fsync) store ∧
      store.startIndex = 2 ∧ store.nextSlot = 5 ∧ store.logQueue.getEntry 4 = some (sampleEntry 5) ∧
      store.entryAt 4 = store.segmentStore.getEntry 4 ∧
      store.segmentStore.getEntry 4 = .ok (some store.lastEntry) := by
  refine exists_reached_of (fun store => store.startIndex = 2 ∧ store.nextSlot = 5 ∧
    store.logQueue.getEntry 4 = some (sampleEntry 5)) coherentRun (by decide +kernel) ?_
  rintro store reached ⟨first, next, cached⟩
  have coherent := entryAt_eq_getEntry (.inl rfl) (by decide) (create_sample .fsync) reached
  have lastStored := coherent.2.1 (by omega)
  rw [next] at lastStored
  exact ⟨first, next, cached, (coherent.1 4 (by omega) (by omega)).1, lastStored⟩

def stalePackRun : List FileLogCall :=
  [.append sampleTime (sampleEntry 1), .applyPack 1 [(sampleTime, sampleEntry 2)]]

/-- After `apply_pack` the cache and the last entry are those of the log before. -/
theorem applyPack_leaves_stale :
    ∃ store, ReachableBy next InRange (sample .fsync) store ∧
      store.startIndex = 1 ∧ store.nextSlot = 2 ∧
      store.entryAt 1 = .ok (some (sampleEntry 1)) ∧
      store.segmentStore.getEntry 1 = .ok (some (sampleEntry 2)) ∧
      store.termAt 1 = .ok 1 ∧ store.lastEntry = sampleEntry 1 := by
  exact exists_reached stalePackRun (by decide +kernel)

end NuRaftFileLogStore

end RaftKeeper
