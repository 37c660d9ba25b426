import RaftKeeper.Log.Cache
import RaftKeeper.StateMachine.Replay

/-!
# The threads of a replay

What holds in every state of a replay, whatever the order of the steps: the batches that are
waiting follow each other, from the first index that is not applied yet to the last one that
is loaded, and the loop that applies is left only when the thread loads nothing any more.
-/

namespace RaftKeeper

open List NuRaftFileLogStore

open NuRaft (LogEntry)

theorem ReplayLogBatch.applied_cons (first stop : ℕ) (loaded : LogEntryWithVersion)
    (rest : List LogEntryWithVersion) :
    ReplayLogBatch.applied ⟨first, stop, loaded :: rest⟩ =
      (if loaded.entry.valType = appLog then [(first, loaded.entry)] else []) ++
        ReplayLogBatch.applied ⟨first + 1, stop, rest⟩ := by
  have shifted : (fun position (loaded : LogEntryWithVersion) =>
      (first + (position + 1), loaded.entry)) = fun position loaded =>
        (first + 1 + position, loaded.entry) := by
    funext position loaded
    rw [Nat.add_right_comm, Nat.add_assoc]
  simp only [applied, mapIdx_cons, shifted, Nat.add_zero, filter_cons]
  split <;> simp_all

namespace ReplaySystem

def appEntries (logStore : NuRaftFileLogStore) (first stop : ℕ) : List (ℕ × LogEntry) :=
  (range' first (stop - first)).filterMap fun index =>
    match logStore.entryAt index with
    | .ok (some entry) => if entry.valType = appLog then some (index, entry) else none
    | _ => none

variable {first stop : ℕ} {middle : ℕ}

theorem appEntries_append (logStore : NuRaftFileLogStore) (lower : first ≤ middle)
    (upper : middle ≤ stop) :
    appEntries logStore first middle ++ appEntries logStore middle stop =
      appEntries logStore first stop := by
  have ranges := @range'_append_1 first (middle - first) (stop - middle)
  rw [show first + (middle - first) = middle by omega,
    show middle - first + (stop - middle) = stop - first by omega] at ranges
  rw [appEntries, appEntries, ← filterMap_append, ranges]
  rfl

variable {logStore : NuRaftFileLogStore}

theorem appEntries_of_entryAt {entry : LogEntry}
    (reads : logStore.entryAt first = .ok (some entry)) (nonempty : first < stop) :
    appEntries logStore first stop =
      (if entry.valType = appLog then [(first, entry)] else []) ++
        appEntries logStore (first + 1) stop := by
  rw [appEntries, show stop - first = stop - (first + 1) + 1 by omega, range'_succ,
    filterMap_cons, reads]
  by_cases isApp : entry.valType = appLog
  · simp only [isApp, if_true, singleton_append]
    rfl
  · simp only [isApp, if_false, nil_append]
    rfl

@[simp]
theorem appEntries_self (logStore : NuRaftFileLogStore) (index : ℕ) :
    appEntries logStore index index = [] := by
  simp [appEntries]

def Readable (logStore : NuRaftFileLogStore) (fromIndex toIndex : ℕ) : Prop :=
  ∀ index, fromIndex ≤ index → index ≤ toIndex → ∃ entry version,
    logStore.entryAt index = .ok (some entry) ∧ logStore.segmentStore.getVersion index = .ok version

variable {log : IndexedLog LogEntry}

theorem readable_of_coherent (coherent : logStore.Coherent log) {fromIndex toIndex : ℕ}
    (lower : logStore.startIndex ≤ fromIndex) (upper : toIndex < logStore.nextSlot) :
    Readable logStore fromIndex toIndex := by
  intro index above below
  have represents := coherent.represents
  have stored : (log.get index).isSome := by
    apply IndexedLog.get_isSome_iff.mpr
    have first := represents.first
    have last := represents.last
    rw [startIndex] at lower
    rw [nextSlot] at upper
    exact ⟨by omega, by omega⟩
  rcases Option.isSome_iff_exists.mp stored with ⟨entry, found⟩
  have reads := represents.getEntry index
  rw [found, LogSegmentStore.getEntry] at reads
  rw [coherent.entryAt, represents.getEntry, found, LogSegmentStore.getVersion]
  cases isSegment : logStore.segmentStore.getSegment index with
  | none =>
    rw [isSegment] at reads
    cases reads
  | some segment => exact ⟨entry, segment.version, rfl, rfl⟩

variable {logStore : NuRaftFileLogStore} {fromIndex toIndex : ℕ}

theorem logEntriesLoop_of_readable (readable : Readable logStore fromIndex toIndex) {count : ℕ}
    (lower : fromIndex ≤ first) (upper : first + count ≤ toIndex + 1) (size : ℕ) :
    ∃ logEntries, logStore.logEntriesLoop 0 (range' first count) size = .ok (some logEntries) ∧
      ReplayLogBatch.applied ⟨first, first + count, logEntries⟩ =
        appEntries logStore first (first + count) := by
  induction count generalizing first size with
  | zero => exact ⟨[], rfl, by simp [ReplayLogBatch.applied]⟩
  | succ count ih =>
    rcases readable first lower (by omega) with ⟨entry, version, reads, hasVersion⟩
    rcases @ih (first + 1) (by omega) (by omega) (size + (entry.data.length + 8 + 1)) with
      ⟨rest, loads, applied⟩
    refine ⟨⟨version, entry⟩ :: rest, ?_, ?_⟩
    · simp only [range'_succ, NuRaftFileLogStore.logEntriesLoop, reads, hasVersion, loads,
        lt_self_iff_false, false_and, if_false]
      rfl
    · rw [ReplayLogBatch.applied_cons, appEntries_of_entryAt reads (by omega)]
      rw [show first + (count + 1) = first + 1 + count by omega, applied]

theorem loadBatch_of_readable (readable : Readable logStore fromIndex toIndex)
    (lower : fromIndex ≤ first) (upper : first < toIndex) :
    ∃ batch, loadBatch logStore toIndex first = some batch ∧ batch.batchStartIndex = first ∧
      batch.batchEndIndex = min (first + batchSize) (toIndex + 1) ∧
      batch.applied = appEntries logStore first batch.batchEndIndex := by
  have stop : first + (min (first + batchSize) (toIndex + 1) - first) =
      min (first + batchSize) (toIndex + 1) := by omega
  rcases logEntriesLoop_of_readable readable lower
    (show first + (min (first + batchSize) (toIndex + 1) - first) ≤ toIndex + 1 by omega) 0 with
    ⟨logEntries, loads, applied⟩
  rw [stop] at applied
  refine ⟨⟨first, min (first + batchSize) (toIndex + 1), logEntries⟩, ?_, rfl, rfl, applied⟩
  simp only [loadBatch, logEntriesVersionExt, loads]

/-- Batches that follow each other, from an index on and before another one. -/
inductive Tiles (logStore : NuRaftFileLogStore) : ℕ → List ReplayLogBatch → ℕ → Prop
  | nil (index : ℕ) : Tiles logStore index [] index
  | cons {first stop : ℕ} {batch : ReplayLogBatch} {rest : List ReplayLogBatch}
      (grows : first < batch.batchEndIndex)
      (holds : batch.applied = appEntries logStore first batch.batchEndIndex)
      (continues : Tiles logStore batch.batchEndIndex rest stop) :
      Tiles logStore first (batch :: rest) stop

variable {batches : List ReplayLogBatch} {batch : ReplayLogBatch}

theorem Tiles.append (tiles : Tiles logStore first batches middle)
    (grows : middle < batch.batchEndIndex)
    (holds : batch.applied = appEntries logStore middle batch.batchEndIndex) :
    Tiles logStore first (batches ++ [batch]) batch.batchEndIndex := by
  induction tiles with
  | nil index => exact .cons grows holds (.nil _)
  | cons growsFirst holdsFirst _ ih => exact .cons growsFirst holdsFirst (ih grows holds)

theorem Tiles.front (tiles : Tiles logStore first batches stop)
    (isFront : batches.head? = some batch) :
    first < batch.batchEndIndex ∧ batch.applied = appEntries logStore first batch.batchEndIndex ∧
      Tiles logStore batch.batchEndIndex batches.tail stop := by
  cases tiles with
  | nil _ => simp at isFront
  | cons grows holds continues =>
    cases isFront
    exact ⟨grows, holds, continues⟩

def LoadSound (logStore : NuRaftFileLogStore) (toIndex : ℕ) (system : ReplaySystem) : Prop :=
  match system.loadThread with
  | .testing => True
  | .waiting | .loading => system.batchStartIndex < toIndex
  | .pushing batch => system.batchStartIndex < toIndex ∧
      batch.batchEndIndex = min (system.batchStartIndex + batchSize) (toIndex + 1) ∧
      batch.applied = appEntries logStore system.batchStartIndex batch.batchEndIndex
  | .storing batchEndIndex => system.batchStartIndex < toIndex ∧
      batchEndIndex = min (system.batchStartIndex + batchSize) (toIndex + 1)
  | .finished => toIndex ≤ system.batchStartIndex
  | .failed => False

/-- The loading thread has loaded all entries before `batch_start_index`. -/
structure Loads (logStore : NuRaftFileLogStore) (fromIndex toIndex : ℕ) (system : ReplaySystem) :
    Prop where
  lower : fromIndex ≤ system.batchStartIndex
  upper : system.batchStartIndex ≤ toIndex + 1
  /-- As long as `to` is not loaded, all batches are full. -/
  aligned : system.batchStartIndex ≤ toIndex → (system.batchStartIndex - fromIndex) % batchSize = 0
  ended : system.batchStartIndex = toIndex + 1 → (toIndex - fromIndex) % batchSize ≠ 0
  sound : system.LoadSound logStore toIndex

variable {system after : ReplaySystem}

theorem Loads.load (readable : Readable logStore fromIndex toIndex)
    (loads : system.Loads logStore fromIndex toIndex)
    (moves : system.loadStep logStore toIndex = some after) :
    after.Loads logStore fromIndex toIndex := by
  rcases loads with ⟨lower, upper, aligned, ended, sound⟩
  rw [LoadSound] at sound
  rw [loadStep] at moves
  cases isAt : system.loadThread with
  | testing =>
    simp only [isAt] at moves
    cases moves
    refine ⟨lower, upper, aligned, ended, ?_⟩
    rw [LoadSound]
    by_cases more : system.batchStartIndex < toIndex
    · simp [more]
    · simpa [more] using Nat.not_lt.mp more
  | waiting =>
    simp only [isAt] at moves sound
    cases moves
    refine ⟨lower, upper, aligned, ended, ?_⟩
    rw [LoadSound]
    by_cases full : 10 < system.logQueue.length
    · simpa [full] using sound
    · simpa [full] using sound
  | loading =>
    simp only [isAt] at moves sound
    rcases loadBatch_of_readable readable lower sound with ⟨batch, isBatch, starts, ends, holds⟩
    simp only [isBatch] at moves
    cases moves
    exact ⟨lower, upper, aligned, ended, sound, ends, holds⟩
  | pushing batch =>
    simp only [isAt] at moves sound
    cases moves
    exact ⟨lower, upper, aligned, ended, sound.1, sound.2.1⟩
  | storing batchEndIndex =>
    simp only [isAt] at moves sound
    cases moves
    have alignedBefore := aligned (by omega)
    rcases sound with ⟨inside, ends⟩
    simp only [batchSize] at alignedBefore ends ⊢
    refine ⟨?_, ?_, ?_, ?_, trivial⟩
    · simp only
      omega
    · simp only
      omega
    · simp only [batchSize]
      omega
    · simp only [batchSize]
      omega
  | finished | failed =>
    simp only [isAt] at moves
    cases moves

/-- Where the loop goes after each of its tests. -/
inductive Turns (toIndex : ℕ) (system : ReplaySystem) : ApplyLoop → Prop
  | queued (isAt : system.applyLoop = .testingQueue) (queued : system.logQueue ≠ []) :
    Turns toIndex system .waitingQueue
  | noneQueued (isAt : system.applyLoop = .testingQueue) (empty : system.logQueue = []) :
    Turns toIndex system .testingIndex
  | more (isAt : system.applyLoop = .testingIndex) (more : system.batchStartIndex < toIndex) :
    Turns toIndex system .waitingQueue
  | noMore (isAt : system.applyLoop = .testingIndex) (noMore : ¬ system.batchStartIndex < toIndex) :
    Turns toIndex system .joining
  | noneYet (isAt : system.applyLoop = .waitingQueue) (empty : system.logQueue = []) :
    Turns toIndex system .waitingIndex
  | arrived (isAt : system.applyLoop = .waitingQueue) (queued : system.logQueue ≠ []) :
    Turns toIndex system .peeking
  | again (isAt : system.applyLoop = .waitingIndex) (notEnd : system.batchStartIndex ≠ toIndex) :
    Turns toIndex system .waitingQueue
  | atEnd (isAt : system.applyLoop = .waitingIndex) (atEnd : system.batchStartIndex = toIndex) :
    Turns toIndex system .peeking
  | leave (isAt : system.applyLoop = .peeking) (empty : system.logQueue = []) :
    Turns toIndex system .joining
  | take {batch : ReplayLogBatch} {rest : List ReplayLogBatch}
      (isAt : system.applyLoop = .peeking) (queued : system.logQueue = batch :: rest) :
    Turns toIndex system (.applying batch)
  | join (isAt : system.applyLoop = .joining) (isFinished : system.loadThread = .finished) :
    Turns toIndex system .returned

theorem applyStep_cases (moves : system.applyStep toIndex = some after) :
    (∃ loop, system.Turns toIndex loop ∧ after = { system with applyLoop := loop }) ∨
    (∃ batch, system.applyLoop = .applying batch ∧
      after = { system with
        applied := system.applied ++ batch.applied, applyLoop := .popping batch }) ∨
    (∃ batch, system.applyLoop = .popping batch ∧
      after = { system with logQueue := system.logQueue.tail, applyLoop := .committing batch }) ∨
    ∃ batch, system.applyLoop = .committing batch ∧
      after = { system with
        lastCommittedIdx := batch.batchEndIndex - 1, applyLoop := .testingQueue } := by
  rw [applyStep] at moves
  cases isAt : system.applyLoop with
  | applying batch | popping batch | committing batch =>
    simp only [isAt] at moves
    cases moves
    simp
  | returned => simp [isAt] at moves
  | joining =>
    simp only [isAt, Option.ite_none_right_eq_some, Option.some.injEq] at moves
    exact .inl ⟨_, .join isAt moves.1, moves.2.symm⟩
  | _ =>
    simp only [isAt] at moves
    cases moves
    refine .inl ⟨_, ?_, rfl⟩
    split <;> grind [Turns]

theorem frame_applyStep (moves : system.applyStep toIndex = some after) :
    after.batchStartIndex = system.batchStartIndex ∧ after.loadThread = system.loadThread := by
  rcases applyStep_cases moves with ⟨_, _, rfl⟩ | ⟨_, _, rfl⟩ | ⟨_, _, rfl⟩ | ⟨_, _, rfl⟩ <;>
    exact ⟨rfl, rfl⟩

theorem Loads.apply (loads : system.Loads logStore fromIndex toIndex)
    (moves : system.applyStep toIndex = some after) : after.Loads logStore fromIndex toIndex := by
  rcases frame_applyStep moves with ⟨sameStart, sameThread⟩
  rcases loads with ⟨lower, upper, aligned, ended, sound⟩
  rw [LoadSound, ← sameStart, ← sameThread] at sound
  rw [← sameStart] at lower upper aligned ended
  exact ⟨lower, upper, aligned, ended, sound⟩

def pushedEnd (system : ReplaySystem) : ℕ :=
  match system.loadThread with
  | .storing batchEndIndex => batchEndIndex
  | _ => system.batchStartIndex

theorem loadStep_cases (moves : system.loadStep logStore toIndex = some after) :
    (∃ thread, after = { system with loadThread := thread } ∧
      system.pushedEnd = system.batchStartIndex ∧ after.pushedEnd = system.batchStartIndex) ∨
    (∃ batch, system.loadThread = .pushing batch ∧
      after = { system with
        logQueue := system.logQueue ++ [batch]
        loadThread := .storing batch.batchEndIndex }) ∨
    ∃ batchEndIndex, system.loadThread = .storing batchEndIndex ∧
      after = { system with batchStartIndex := batchEndIndex, loadThread := .testing } := by
  rw [loadStep] at moves
  cases isAt : system.loadThread with
  | testing =>
    simp only [isAt] at moves
    cases moves
    refine .inl ⟨_, rfl, by simp [pushedEnd, isAt], ?_⟩
    by_cases more : system.batchStartIndex < toIndex
    · simp [pushedEnd, more]
    · simp [pushedEnd, more]
  | waiting =>
    simp only [isAt] at moves
    cases moves
    refine .inl ⟨_, rfl, by simp [pushedEnd, isAt], ?_⟩
    by_cases full : 10 < system.logQueue.length
    · simp [pushedEnd, full]
    · simp [pushedEnd, full]
  | loading =>
    simp only [isAt] at moves
    cases moves
    refine .inl ⟨_, rfl, by simp [pushedEnd, isAt], ?_⟩
    cases isBatch : loadBatch logStore toIndex system.batchStartIndex with
    | none | some batch => simp [pushedEnd]
  | pushing batch =>
    simp only [isAt] at moves
    cases moves
    exact .inr (.inl ⟨batch, rfl, rfl⟩)
  | storing batchEndIndex =>
    simp only [isAt] at moves
    cases moves
    exact .inr (.inr ⟨batchEndIndex, rfl, rfl⟩)
  | finished | failed =>
    simp only [isAt] at moves
    cases moves

/-- `last_committed_idx` once all entries before an index are popped. -/
def CommittedBefore (fromIndex initially position lastCommittedIdx : ℕ) : Prop :=
  lastCommittedIdx = if position = fromIndex then initially else position - 1

/-- What has been applied when the entries before `position` are popped. -/
def ApplySound (logStore : NuRaftFileLogStore) (fromIndex initially position : ℕ)
    (system : ReplaySystem) : Prop :=
  match system.applyLoop with
  | .applying batch => system.logQueue.head? = some batch ∧
      system.applied = appEntries logStore fromIndex position ∧
      CommittedBefore fromIndex initially position system.lastCommittedIdx
  | .popping batch => system.logQueue.head? = some batch ∧
      system.applied = appEntries logStore fromIndex batch.batchEndIndex ∧
      CommittedBefore fromIndex initially position system.lastCommittedIdx
  | .committing batch => batch.batchEndIndex = position ∧ fromIndex < position ∧
      system.applied = appEntries logStore fromIndex position
  | _ => system.applied = appEntries logStore fromIndex position ∧
      CommittedBefore fromIndex initially position system.lastCommittedIdx

/-- The loop is left only when the thread has loaded all it will load. -/
def ExitSound (toIndex : ℕ) (system : ReplaySystem) : Prop :=
  match system.applyLoop with
  | .peeking => system.logQueue = [] → system.batchStartIndex = toIndex
  | .joining => toIndex ≤ system.batchStartIndex
  | .returned => system.loadThread = .finished
  | _ => True

/-- The batches in the queue follow on what is applied and reach what is loaded. -/
structure Sound (logStore : NuRaftFileLogStore) (fromIndex toIndex initially : ℕ)
    (system : ReplaySystem) : Prop where
  loads : system.Loads logStore fromIndex toIndex
  applies : ∃ position, fromIndex ≤ position ∧
    Tiles logStore position system.logQueue system.pushedEnd ∧
    system.ApplySound logStore fromIndex initially position
  exits : system.ExitSound toIndex

variable {initially : ℕ}

theorem sound_start (inRange : fromIndex ≤ toIndex) :
    (start fromIndex initially).Sound logStore fromIndex toIndex initially := by
  refine ⟨⟨le_rfl, ?_, ?_, ?_, trivial⟩, ⟨fromIndex, le_rfl, .nil _, ?_⟩, trivial⟩
  · simp only [start]
    omega
  · simp [start]
  · simp only [start]
    omega
  · simp [ApplySound, CommittedBefore, start]

theorem ApplySound.push {position : ℕ} (applies : system.ApplySound logStore fromIndex initially
    position) (batch : ReplayLogBatch) (thread : LoadThread) :
    ApplySound logStore fromIndex initially position
      { system with logQueue := system.logQueue ++ [batch], loadThread := thread } := by
  rw [ApplySound] at applies ⊢
  cases isAt : system.applyLoop with
  | applying front | popping front =>
    simp only [isAt, head?_append] at applies ⊢
    exact ⟨by rw [applies.1]; rfl, applies.2⟩
  | _ =>
    simp only [isAt] at applies ⊢
    exact applies

theorem ExitSound.load (exits : system.ExitSound toIndex)
    (loadSound : system.LoadSound logStore toIndex)
    (moves : system.loadStep logStore toIndex = some after) : after.ExitSound toIndex := by
  have notFinished : system.loadThread ≠ .finished := by
    intro isFinished
    simp [loadStep, isFinished] at moves
  rw [ExitSound] at exits ⊢
  rcases loadStep_cases moves with ⟨thread, rfl, -, -⟩ | ⟨batch, isPushing, rfl⟩ |
    ⟨batchEndIndex, isStoring, rfl⟩
  · cases isAt : system.applyLoop with
    | returned =>
      simp only [isAt] at exits
      exact absurd exits notFinished
    | _ =>
      simp only [isAt] at exits ⊢
      try exact exits
  · cases isAt : system.applyLoop with
    | peeking => simp
    | returned =>
      simp only [isAt] at exits
      exact absurd exits notFinished
    | _ =>
      simp only [isAt] at exits ⊢
      try exact exits
  · simp only [LoadSound, isStoring] at loadSound
    cases isAt : system.applyLoop with
    | peeking =>
      simp only [isAt] at exits ⊢
      intro noneQueued
      have atEnd := exits noneQueued
      omega
    | joining =>
      simp only [isAt] at exits ⊢
      omega
    | returned =>
      simp only [isAt] at exits
      exact absurd exits notFinished
    | _ => simp only

theorem Sound.load (readable : Readable logStore fromIndex toIndex)
    (sound : system.Sound logStore fromIndex toIndex initially)
    (moves : system.loadStep logStore toIndex = some after) :
    after.Sound logStore fromIndex toIndex initially := by
  have loadsAfter := sound.loads.load readable moves
  have loadSound := sound.loads.sound
  have exitsAfter := sound.exits.load loadSound moves
  rcases sound with ⟨loads, ⟨position, lower, tiles, applies⟩, exits⟩
  rcases loadStep_cases moves with ⟨thread, rfl, endBefore, endAfter⟩ | ⟨batch, isPushing, rfl⟩ |
    ⟨batchEndIndex, isStoring, rfl⟩
  · rw [endBefore] at tiles
    exact ⟨loadsAfter, ⟨position, lower, by rw [endAfter]; exact tiles, applies⟩, exitsAfter⟩
  · simp only [LoadSound, isPushing] at loadSound
    simp only [pushedEnd, isPushing] at tiles
    rcases loadSound with ⟨inside, ends, holds⟩
    have grows : system.batchStartIndex < batch.batchEndIndex := by
      rw [ends, batchSize]
      omega
    exact ⟨loadsAfter, ⟨position, lower, tiles.append grows holds, applies.push _ _⟩, exitsAfter⟩
  · simp only [pushedEnd, isStoring] at tiles
    exact ⟨loadsAfter, ⟨position, lower, tiles, applies⟩, exitsAfter⟩

theorem ExitSound.apply (exits : system.ExitSound toIndex)
    (moves : system.applyStep toIndex = some after) : after.ExitSound toIndex := by
  rcases applyStep_cases moves with ⟨loop, turns, rfl⟩ | ⟨_, _, rfl⟩ | ⟨_, _, rfl⟩ | ⟨_, _, rfl⟩
  · cases turns with
    | noMore _ noMore => exact Nat.not_lt.mp noMore
    | arrived _ queued => exact fun empty => absurd empty queued
    | atEnd _ atEnd => exact fun _ => atEnd
    | leave isAt empty =>
      simp only [ExitSound, isAt] at exits
      exact (exits empty).ge
    | join _ isFinished => exact isFinished
    | _ => trivial
  all_goals trivial

theorem Sound.apply (sound : system.Sound logStore fromIndex toIndex initially)
    (moves : system.applyStep toIndex = some after) :
    after.Sound logStore fromIndex toIndex initially := by
  refine ⟨sound.loads.apply moves, ?_, sound.exits.apply moves⟩
  rcases frame_applyStep moves with ⟨sameStart, sameThread⟩
  have sameEnd : after.pushedEnd = system.pushedEnd := by
    rw [pushedEnd, pushedEnd, sameStart, sameThread]
  rcases sound.applies with ⟨position, lower, tiles, applies⟩
  rw [← sameEnd] at tiles
  rw [ApplySound] at applies
  rcases applyStep_cases moves with ⟨loop, turns, rfl⟩ | ⟨batch, isAt, rfl⟩ | ⟨batch, isAt, rfl⟩ |
    ⟨batch, isAt, rfl⟩
  · refine ⟨position, lower, tiles, ?_⟩
    cases turns with
    | take isAt queued =>
      simp only [isAt] at applies
      exact ⟨by simp [queued], applies⟩
    | queued isAt | noneQueued isAt | more isAt | noMore isAt | noneYet isAt | arrived isAt
    | again isAt | atEnd isAt | leave isAt | join isAt =>
      simp only [isAt] at applies
      exact applies
  all_goals simp only [isAt] at applies
  · rcases applies with ⟨isFront, applied, committed⟩
    rcases tiles.front isFront with ⟨grows, holds, -⟩
    refine ⟨position, lower, tiles, isFront, ?_, committed⟩
    simp only [applied, holds]
    exact appEntries_append logStore lower grows.le
  · rcases applies with ⟨isFront, applied, -⟩
    rcases tiles.front isFront with ⟨grows, -, continues⟩
    exact ⟨batch.batchEndIndex, by omega, continues, rfl, by omega, applied⟩
  · rcases applies with ⟨isEnd, later, applied⟩
    refine ⟨position, lower, tiles, applied, ?_⟩
    rw [CommittedBefore, if_neg (by omega)]
    simp only [isEnd]

theorem Sound.next (readable : Readable logStore fromIndex toIndex)
    (sound : system.Sound logStore fromIndex toIndex initially) {thread : ReplayThread}
    (moves : system.next logStore toIndex thread = some after) :
    after.Sound logStore fromIndex toIndex initially := by
  cases thread with
  | load => exact sound.load readable moves
  | apply => exact sound.apply moves

open LogSegmentStore (sampleTime)

def appEntry (term : UInt64) : LogEntry := ⟨term, appLog, [], LogEntry.fits_nil⟩

def withEntry (logStore : NuRaftFileLogStore) (entry : LogEntry) : NuRaftFileLogStore :=
  match logStore.append sampleTime entry with
  | .ok _ after => after
  | .error _ after => after

theorem coherent_withEntry (coherent : logStore.Coherent log) (entry : LogEntry) :
    (withEntry logStore entry).Coherent (log.append entry) := by
  rcases coherent.append sampleTime entry with ⟨after, appends, coherentAfter⟩
  rw [withEntry, appends]
  exact coherentAfter

def sampleLog : NuRaftFileLogStore :=
  withEntry (withEntry (.sample .fsync) (appEntry 1)) (appEntry 2)

theorem coherent_sampleLog : ∃ log, sampleLog.Coherent log := by
  rcases HoldsLog.create (.inl rfl) LogSegmentStore.sampleOrder .fsync 1000
    (show magicAndVersionSize ≤ 9 by decide) sampleTime with ⟨_, log, creates, coherent⟩
  rw [create_sample] at creates
  cases creates
  exact ⟨_, coherent_withEntry (coherent_withEntry coherent _) _⟩

end ReplaySystem

end RaftKeeper
