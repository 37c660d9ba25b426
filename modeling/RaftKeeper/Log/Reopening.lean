import RaftKeeper.Log.Compaction

/-!
# Opening the files of a store again

A new store on the files of a store has the same range and the same entries. The exceptions are
calls after which the store itself disagrees with its files, a limit below the size of a header, and
a log without entries, whose header-only segment the next `init` refuses.
-/

namespace RaftKeeper

open NuRaft (LogEntry)

/-- The calls of a run without restarts, compaction included. -/
inductive MaintenanceCall
  | call (call : LogCall)
  | removeSegment (firstIndexKept : ℕ)

namespace LogSegmentStore

def afterCall (store : LogSegmentStore) : MaintenanceCall → LogSegmentStore
  | .call call => (perform call).leaves store
  | .removeSegment firstIndexKept => store.removeSegment firstIndexKept

/-- The call does not lower the last index below the first, and does not cut to the last entry. -/
def KeepsRange (store : LogSegmentStore) : MaintenanceCall → Prop
  | .call call => store.StaysAbove call
  | .removeSegment firstIndexKept => ¬ store.CutsLast firstIndexKept

instance (store : LogSegmentStore) : (call : MaintenanceCall) → Decidable (store.KeepsRange call)
  | .call _ => inferInstanceAs (Decidable (StaysAbove _ _))
  | .removeSegment _ => inferInstanceAs (Decidable (¬ _))

variable {store : LogSegmentStore} {log : IndexedLog LogEntry}

theorem Represents.afterCall (represents : store.Represents log) (settled : store.Settled)
    (full : store.FullClosed) {call : MaintenanceCall} (keeps : store.KeepsRange call) :
    ∃ logAfter, store.Yields logAfter (store.afterCall call) := by
  cases call with
  | call call =>
    rcases represents.leaves settled full keeps with ⟨logAfter, -, yields⟩
    exact ⟨logAfter, yields⟩
  | removeSegment firstIndexKept =>
    by_cases below : store.firstLogIndex < firstIndexKept
    · have belowLog := below
      rw [represents.first] at belowLog
      rcases Nat.lt_or_ge store.lastLogIndex firstIndexKept with above | inside
      · exact ⟨_, represents.removeSegment_all above belowLog⟩
      · rcases represents.removeSegment_some settled belowLog inside
          (fun single => keeps ⟨below, single⟩) with ⟨first, -, -, yields, -⟩
        exact ⟨_, yields⟩
    · refine ⟨log, ?_⟩
      rw [LogSegmentStore.afterCall, removeSegment, if_pos (Nat.not_lt.mp below)]
      exact ⟨represents, settled, rfl, fun _ => .inl⟩

/-- What the calls of a run keep, so that its files can be opened again. -/
structure Sound (store : LogSegmentStore) : Prop where
  represents : ∃ log, store.Represents log
  settled : store.Settled
  full : store.FullClosed
  nonemptyClosed : store.NonemptyClosed
  room : magicAndVersionSize ≤ store.maxLogSegmentFileSize

theorem Sound.afterCall (sound : store.Sound) {call : MaintenanceCall}
    (keeps : store.KeepsRange call) : (store.afterCall call).Sound := by
  rcases sound.represents with ⟨log, represents⟩
  rcases represents.afterCall sound.settled sound.full keeps with ⟨logAfter, yields⟩
  exact ⟨⟨logAfter, yields.represents⟩, yields.settled,
    sound.full.of_closesFull yields.closesFull yields.sameMax,
    sound.nonemptyClosed.of_closesFull yields.closesFull yields.represents sound.room,
    yields.sameMax ▸ sound.room⟩

theorem sound_of_reachable {order : Enumeration Unit Bytes} {maxLogSegmentFileSize : ℕ}
    {createTime : CreateTime} {start : LogSegmentStore}
    (room : magicAndVersionSize ≤ maxLogSegmentFileSize)
    (starts : init order maxLogSegmentFileSize createTime ∅ = .ok start)
    (reached : ReachableBy (fun store call => some (store.afterCall call)) KeepsRange start store) :
    store.Sound := by
  apply reached.invariant Sound
  · have invariant := invariant_start room starts
    rcases init_empty order maxLogSegmentFileSize createTime with ⟨_, isStart, -, -, noClosed, -⟩
    rw [starts] at isStart
    cases isStart
    refine ⟨⟨_, invariant.represents⟩, invariant.settled, ?_, invariant.nonemptyClosed,
      invariant.room⟩
    rw [FullClosed, noClosed]
    simp
  · intro before after call sound keeps moves
    cases moves
    exact sound.afterCall keeps

/-- Two stores of one log have the same range and the same entries. -/
theorem Represents.restores {after : LogSegmentStore} (represents : store.Represents log)
    (restored : after.Represents log) :
    after.firstLogIndex = store.firstLogIndex ∧ after.lastLogIndex = store.lastLogIndex ∧
      ∀ index, store.firstLogIndex ≤ index → index ≤ store.lastLogIndex →
        ∃ entry, store.getEntry index = .ok (some entry) ∧
          after.getEntry index = .ok (some entry) := by
  have first := represents.first
  have last := represents.last
  refine ⟨restored.first.trans first.symm, ?_, ?_⟩
  · have lastAfter := restored.last
    omega
  · intro index lower upper
    have isStored : (log.get index).isSome := IndexedLog.get_isSome_iff.mpr ⟨by omega, by omega⟩
    rcases Option.isSome_iff_exists.mp isStored with ⟨entry, found⟩
    exact ⟨entry, by rw [represents.getEntry, found], by rw [restored.getEntry, found]⟩

/--
A new store on the files of a store with entries succeeds and has the same range and entries,
whatever calls that keep the range have led there.
-/
theorem init_restores {order : Enumeration Unit Bytes} {maxLogSegmentFileSize : ℕ}
    {createTime : CreateTime} {start : LogSegmentStore}
    (room : magicAndVersionSize ≤ maxLogSegmentFileSize)
    (starts : init order maxLogSegmentFileSize createTime ∅ = .ok start)
    (reached : ReachableBy (fun store call => some (store.afterCall call)) KeepsRange start store)
    (stored : store.firstLogIndex ≤ store.lastLogIndex) (newOrder : Enumeration Unit Bytes)
    {newMax : ℕ} (newRoom : magicAndVersionSize ≤ newMax) (newTime : CreateTime) :
    ∃ after, init newOrder newMax newTime store.files = .ok after ∧
      after.firstLogIndex = store.firstLogIndex ∧ after.lastLogIndex = store.lastLogIndex ∧
      ∀ index, store.firstLogIndex ≤ index → index ≤ store.lastLogIndex →
        ∃ entry, store.getEntry index = .ok (some entry) ∧
          after.getEntry index = .ok (some entry) := by
  have sound := sound_of_reachable room starts reached
  rcases sound.represents with ⟨log, represents⟩
  rcases represents.init_of_settled sound.settled sound.nonemptyClosed
    (represents.entries_ne_nil stored) newOrder newRoom newTime with ⟨after, restarts, restored, -⟩
  exact ⟨after, restarts, represents.restores restored⟩

def maintenanceRun : List MaintenanceCall :=
  [.call (.appendEntry sampleTime (sampleEntry 1)), .call (.appendEntry sampleTime (sampleEntry 2)),
    .call (.appendEntry sampleTime (sampleEntry 3)), .removeSegment 2, .call (.truncateLog 2),
    .call (.writeAt sampleTime 2 (sampleEntry 4)), .call (.writeAt sampleTime 9 (sampleEntry 5)),
    .call (.appendEntry sampleTime (sampleEntry 6))]

set_option maxRecDepth 10000 in
theorem init_restores_maintenanceRun :
    ∃ store after, ReachableBy (fun store call => some (store.afterCall call)) KeepsRange
        sampleStart store ∧
      store.firstLogIndex = 2 ∧ store.lastLogIndex = 3 ∧
      init sampleOrder 9 sampleTime store.files = .ok after ∧
      after.firstLogIndex = store.firstLogIndex ∧ after.lastLogIndex = store.lastLogIndex := by
  simp only [exists_and_left]
  refine exists_reached_of (fun store => store.firstLogIndex = 2 ∧ store.lastLogIndex = 3)
    maintenanceRun (by decide) ?_
  rintro store reached ⟨isFirst, isLast⟩
  rcases init_restores (by decide) init_sampleStart reached (by omega) sampleOrder
    (show magicAndVersionSize ≤ 9 by decide) sampleTime with ⟨after, restarts, first, last, -⟩
  exact ⟨isFirst, isLast, after, restarts, first, last⟩

set_option maxRecDepth 10000 in
theorem init_refuses_own_files :
    init sampleOrder 9 sampleTime ∅ = .ok sampleStart ∧ sampleStart.openSegment.isSome ∧
      init sampleOrder 9 sampleTime sampleStart.files = .error .emptyOpenSegment :=
  ⟨init_sampleStart, rfl, by decide⟩

end LogSegmentStore

end RaftKeeper
