import RaftKeeper.Common.Platform
import RaftKeeper.Lib.Run
import RaftKeeper.Log.Recovery

/-!
# A store of segments is a log

Every run of appending, overwriting, truncating and restarting is a run of the same calls on an
indexed log. Two things are excluded: a closed segment that a truncation opens again has its
descriptor at the start of the file, so the next entry overwrites it if the file has room (after a
restart with a larger limit); and with a limit below the size of the header an empty segment is
closed, which the next start refuses.
-/

namespace RaftKeeper

open NuRaft (LogEntry)

/-- The calls that write to the log. -/
inductive LogCall
  | appendEntry (createTime : CreateTime) (entry : LogEntry)
  | writeAt (createTime : CreateTime) (index : ℕ) (entry : LogEntry)
  | truncateLog (lastIndexKept : ℕ)

/-- What a restart may choose. -/
structure Restart where
  order : Enumeration Unit Bytes
  maxLogSegmentFileSize : ℕ
  createTime : CreateTime

/-- A call, or a restart on the files that the store has left. -/
inductive LogEvent
  | call (call : LogCall)
  | restart (restart : Restart)

namespace LogCall

def onLog (log : IndexedLog LogEntry) : LogCall → IndexedLog LogEntry
  | appendEntry _ entry => log.append entry
  | writeAt _ index entry => log.writeAt index entry
  | truncateLog lastIndexKept => log.keepTo lastIndexKept

end LogCall

namespace LogSegmentStore

def perform : LogCall → StoreCall Unit
  | .appendEntry createTime entry => discard (appendEntry createTime entry)
  | .writeAt createTime index entry => writeAt createTime index entry
  | .truncateLog lastIndexKept => discard (truncateLog lastIndexKept)

def next (state : LogSegmentStore × IndexedLog LogEntry) :
    LogEvent → Option (LogSegmentStore × IndexedLog LogEntry)
  | .call call =>
    match perform call state.1 with
    | .ok _ after => some (after, call.onLog state.2)
    | .error _ _ => none
  | .restart restart =>
    match init restart.order restart.maxLogSegmentFileSize restart.createTime
        state.1.close.files with
    | .ok after => some (after, state.2)
    | .error _ => none

/-- The indexes that the calls may be given, and when a restart may happen. -/
def InRange (store : LogSegmentStore) : LogEvent → Prop
  | .call (.appendEntry _ _) => True
  | .call (.writeAt _ index _) => store.firstLogIndex ≤ index ∧ index ≤ store.lastLogIndex + 1
  | .call (.truncateLog lastIndexKept) =>
    store.firstLogIndex ≤ lastIndexKept + 1 ∧ lastIndexKept ≤ store.lastLogIndex
  | .restart _ => store.firstLogIndex ≤ store.lastLogIndex

/-- The calls that do not open a closed segment with room for another entry, and the restarts
with a limit that a header does not exceed. -/
def Harmless (store : LogSegmentStore) : LogEvent → Prop
  | .call (.appendEntry _ _) => True
  | .call (.writeAt _ index _) => ¬ store.ReopensSmall (index - 1)
  | .call (.truncateLog lastIndexKept) => ¬ store.ReopensSmall lastIndexKept
  | .restart restart => magicAndVersionSize ≤ restart.maxLogSegmentFileSize

instance (store : LogSegmentStore) : (event : LogEvent) → Decidable (store.InRange event)
  | .call (.appendEntry _ _) => .isTrue trivial
  | .call (.writeAt _ _ _) => inferInstanceAs (Decidable (_ ∧ _))
  | .call (.truncateLog _) => inferInstanceAs (Decidable (_ ∧ _))
  | .restart _ => inferInstanceAs (Decidable (_ ≤ _))

instance (store : LogSegmentStore) : (event : LogEvent) → Decidable (store.Harmless event)
  | .call (.appendEntry _ _) => .isTrue trivial
  | .call (.writeAt _ _ _) => inferInstanceAs (Decidable (¬ _))
  | .call (.truncateLog _) => inferInstanceAs (Decidable (¬ _))
  | .restart _ => inferInstanceAs (Decidable (_ ≤ _))

@[simp]
theorem files_close (store : LogSegmentStore) : store.close.files = store.files := by
  cases isOpen : store.openSegment with
  | none => simp [close, isOpen]
  | some segment =>
    cases isOpenSegment : segment.isOpen with
    | true | false => simp [close, isOpen, NuRaftLogSegment.close, isOpenSegment]

/-- The store represents the log, and a restart would find it again. -/
structure Invariant (state : LogSegmentStore × IndexedLog LogEntry) : Prop where
  represents : state.1.Represents state.2
  settled : state.1.Settled
  nonemptyClosed : state.1.NonemptyClosed
  room : magicAndVersionSize ≤ state.1.maxLogSegmentFileSize

variable {store : LogSegmentStore} {log : IndexedLog LogEntry}

theorem Yields.invariant {after : LogSegmentStore} {logAfter : IndexedLog LogEntry}
    (yields : store.Yields logAfter after) (invariant : Invariant (store, log)) :
    Invariant (after, logAfter) where
  represents := yields.represents
  settled := yields.settled
  nonemptyClosed :=
    invariant.nonemptyClosed.of_closesFull yields.closesFull yields.represents invariant.room
  room := by
    have sameMax := yields.sameMax
    have room := invariant.room
    simp only at room ⊢
    omega

theorem discard_of_ok {α : Type} {call : StoreCall α} {value : α} {after : LogSegmentStore}
    (returns : call store = .ok value after) : (discard call : StoreCall Unit) store =
      .ok () after := by
  simp [discard, Functor.discard, Functor.mapConst, EStateM.map, returns]

theorem perform_yields (represents : store.Represents log) (settled : store.Settled)
    {call : LogCall} (inRange : store.InRange (.call call))
    (harmless : store.Harmless (.call call)) :
    ∃ after, perform call store = .ok () after ∧ store.Yields (call.onLog log) after := by
  have first := represents.first
  have last := represents.last
  cases call with
  | appendEntry createTime entry =>
    rcases represents.appendEntry settled createTime entry with ⟨after, appends, yields⟩
    exact ⟨after, discard_of_ok appends, yields⟩
  | writeAt createTime index entry =>
    rcases represents.writeAt settled createTime entry (first ▸ inRange.1) (last ▸ inRange.2)
      harmless with ⟨after, writes, yields⟩
    exact ⟨after, writes, yields⟩
  | truncateLog lastIndexKept =>
    rcases represents.truncateLog settled (first ▸ inRange.1) harmless with
      ⟨happened, after, truncates, yields⟩
    exact ⟨after, discard_of_ok truncates, yields⟩

theorem Invariant.next (invariant : Invariant (store, log)) {event : LogEvent}
    (inRange : store.InRange event) (harmless : store.Harmless event) :
    ∃ after, LogSegmentStore.next (store, log) event = some after ∧ Invariant after := by
  cases event with
  | call call =>
    rcases perform_yields invariant.represents invariant.settled inRange harmless with
      ⟨after, performs, yields⟩
    exact ⟨(after, call.onLog log), by simp [LogSegmentStore.next, performs],
      yields.invariant invariant⟩
  | restart restart =>
    rcases invariant.represents.init_of_settled invariant.settled invariant.nonemptyClosed
      (invariant.represents.entries_ne_nil inRange) restart.order harmless restart.createTime with
      ⟨after, starts, represents, settled, nonemptyClosed, sameMax⟩
    refine ⟨(after, log), by simp [LogSegmentStore.next, starts], represents, settled,
      nonemptyClosed, ?_⟩
    rw [sameMax]
    exact harmless

theorem invariant_start {order : Enumeration Unit Bytes} {maxLogSegmentFileSize : ℕ}
    {createTime : CreateTime} (room : magicAndVersionSize ≤ maxLogSegmentFileSize)
    (starts : init order maxLogSegmentFileSize createTime ∅ = .ok store) :
    Invariant (store, ⟨1, []⟩) := by
  rcases init_empty order maxLogSegmentFileSize createTime with
    ⟨after, isStart, represents, settled, noClosed, sameMax⟩
  rw [starts] at isStart
  cases isStart
  refine ⟨represents, settled, ?_, sameMax ▸ room⟩
  rw [NonemptyClosed, noClosed]
  simp

theorem invariant_reached {order : Enumeration Unit Bytes} {maxLogSegmentFileSize : ℕ}
    {createTime : CreateTime} {start : LogSegmentStore}
    (room : magicAndVersionSize ≤ maxLogSegmentFileSize)
    (starts : init order maxLogSegmentFileSize createTime ∅ = .ok start)
    {state : LogSegmentStore × IndexedLog LogEntry}
    (reached : ReachableBy next
      (fun state event => state.1.InRange event ∧ state.1.Harmless event) (start, ⟨1, []⟩) state) :
    Invariant state := by
  apply reached.invariant Invariant (invariant_start room starts)
  intro before after event holds meets moves
  rcases holds.next meets.1 meets.2 with ⟨reachedAfter, movesAfter, holdsAfter⟩
  rw [moves] at movesAfter
  cases movesAfter
  exact holdsAfter

/--
Along every run the store has the range and the entries of the log, and the next call on it
does what it does on the log: `appendEntry` returns the next index, and nothing throws.
-/
theorem store_refines_log {order : Enumeration Unit Bytes} {maxLogSegmentFileSize : ℕ}
    {createTime : CreateTime} {start : LogSegmentStore}
    (room : magicAndVersionSize ≤ maxLogSegmentFileSize)
    (starts : init order maxLogSegmentFileSize createTime ∅ = .ok start)
    (reached : ReachableBy next
      (fun state event => state.1.InRange event ∧ state.1.Harmless event)
      (start, ⟨1, []⟩) (store, log)) :
    store.firstLogIndex = log.first ∧ store.lastLogIndex + 1 = log.next ∧
      (∀ index, store.getEntry index = .ok (log.get index)) ∧
      (∀ createTime entry, ∃ after,
        appendEntry createTime entry store = .ok (store.lastLogIndex + 1) after) ∧
      (∀ event, store.InRange event → store.Harmless event →
        ∃ after, next (store, log) event = some after) := by
  have invariant := invariant_reached room starts reached
  refine ⟨invariant.represents.first, invariant.represents.last, invariant.represents.getEntry, ?_,
    ?_⟩
  · intro createTime entry
    rcases invariant.represents.appendEntry invariant.settled createTime entry with
      ⟨after, appends, -⟩
    exact ⟨after, appends⟩
  · intro event inRange harmless
    rcases invariant.next inRange harmless with ⟨after, moves, -⟩
    exact ⟨after, moves⟩

def sampleOrder : Enumeration Unit Bytes := .sortedBy bytesKey bytesKey_injective

def sampleTime : CreateTime := ⟨ascii "0", by decide, by decide⟩

def sampleEntry (term : UInt64) : LogEntry := ⟨term, 0, [], LogEntry.fits_nil⟩

def sampleStart : LogSegmentStore where
  maxLogSegmentFileSize := 9
  firstLogIndex := 1
  lastLogIndex := 0
  openSegment := some (.fresh 1 sampleTime)
  closedSegments := []
  files := (∅ : Directory).insert (NuRaftLogSegment.fresh 1 sampleTime).fileName segmentHeader

theorem init_sampleStart : init sampleOrder 9 sampleTime ∅ = .ok sampleStart := by
  simp [init, loadSegmentMetaData, loadSegments, loadOpenSegment, openNewSegmentIfNeeded,
    keepsOpenSegment, closeOpenSegment, NuRaftLogSegment.create, sortSegments, bind, Except.bind,
    pure, Except.pure, sampleStart]

def refiningRun : List LogEvent :=
  [.call (.appendEntry sampleTime (sampleEntry 1)), .call (.appendEntry sampleTime (sampleEntry 2)),
    .restart ⟨sampleOrder, 1000, sampleTime⟩, .call (.appendEntry sampleTime (sampleEntry 3)),
    .call (.appendEntry sampleTime (sampleEntry 4)), .call (.truncateLog 3),
    .call (.writeAt sampleTime 3 (sampleEntry 5))]

set_option maxRecDepth 10000 in
theorem store_refines_log_refiningRun :
    ∃ store log, ReachableBy next
        (fun state event => state.1.InRange event ∧ state.1.Harmless event)
        (sampleStart, ⟨1, []⟩) (store, log) ∧
      log = ⟨1, [sampleEntry 1, sampleEntry 2, sampleEntry 5]⟩ ∧
      store.closedSegments.length = 1 ∧ store.lastLogIndex + 1 = log.next ∧
      store.getEntry 3 = .ok (log.get 3) := by
  rcases (exists_reached refiningRun (by decide) : ∃ state, ReachableBy next
      (fun state event => state.1.InRange event ∧ state.1.Harmless event)
      (sampleStart, ⟨1, []⟩) state ∧
    state.2 = ⟨1, [sampleEntry 1, sampleEntry 2, sampleEntry 5]⟩ ∧
      state.1.closedSegments.length = 1) with ⟨⟨store, log⟩, reached, isLog, isOne⟩
  have refines := store_refines_log (by decide) init_sampleStart reached
  exact ⟨store, log, reached, isLog, isOne, refines.2.1, refines.2.2.1 3⟩

def reopeningRun : List LogEvent :=
  [.call (.appendEntry sampleTime (sampleEntry 1)), .call (.appendEntry sampleTime (sampleEntry 2)),
    .restart ⟨sampleOrder, 1000, sampleTime⟩, .call (.truncateLog 1),
    .call (.appendEntry sampleTime (sampleEntry 3))]

set_option maxRecDepth 10000 in
theorem truncation_overwrites :
    ∃ state, ReachableBy next (fun state event => state.1.InRange event) (sampleStart, ⟨1, []⟩)
        state ∧ state.1.getEntry 1 ≠ .ok (state.2.get 1) ∧
      state.1.getEntry 2 ≠ .ok (state.2.get 2) := by
  exact exists_reached reopeningRun (by decide)

end LogSegmentStore

end RaftKeeper
