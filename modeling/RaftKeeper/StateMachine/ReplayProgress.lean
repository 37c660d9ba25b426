import RaftKeeper.Lib.Fair
import RaftKeeper.StateMachine.ReplayInvariant

/-!
# A replay returns

The loop that applies waits while the queue is empty and `batch_start_index != to`. It can take the
last batch before the thread has stored its end, and then waits forever. In every other order of the
steps the replay returns if the threads are scheduled fairly.
-/

namespace RaftKeeper

open List

namespace ReplaySystem

variable {logStore : NuRaftFileLogStore} {fromIndex toIndex initially : ℕ}
  {system after : ReplaySystem}

def Waits (toIndex : ℕ) (system : ReplaySystem) : Prop :=
  (system.applyLoop = .waitingQueue ∨ system.applyLoop = .waitingIndex) ∧
    system.logQueue = [] ∧ system.batchStartIndex ≠ toIndex

/-- The loop waits for a batch that never comes. -/
def Stuck (toIndex : ℕ) (system : ReplaySystem) : Prop :=
  system.loadThread = .finished ∧ system.Waits toIndex

/-- The last batch is taken and its end, which is not `to`, is not stored. -/
def lastTaken (toIndex : ℕ) (system : ReplaySystem) : Prop :=
  system.logQueue = [] ∧ system.loadThread = .storing (toIndex + 1)

/-- The loop does not test the index of its outer loop when the last batch is taken and its end
is not stored. -/
def TestsLate (toIndex : ℕ) (system : ReplaySystem) : ReplayThread → Prop
  | .load => True
  | .apply => ¬ (system.applyLoop = .testingIndex ∧ system.lastTaken toIndex)

instance (toIndex : ℕ) (system : ReplaySystem) : Decidable (system.Waits toIndex) :=
  inferInstanceAs (Decidable ((_ ∨ _) ∧ _ ∧ _))

instance (toIndex : ℕ) (system : ReplaySystem) : Decidable (system.Stuck toIndex) :=
  inferInstanceAs (Decidable (_ ∧ _))

instance (toIndex : ℕ) (system : ReplaySystem) : Decidable (system.lastTaken toIndex) :=
  inferInstanceAs (Decidable (_ ∧ _))

instance (toIndex : ℕ) (system : ReplaySystem) :
    (thread : ReplayThread) → Decidable (system.TestsLate toIndex thread)
  | .load => .isTrue trivial
  | .apply => inferInstanceAs (Decidable (¬ (_ ∧ _)))

def Hopeful (toIndex : ℕ) (system : ReplaySystem) : Prop :=
  system.Waits toIndex → system.batchStartIndex < toIndex ∧
    system.loadThread ≠ .storing (toIndex + 1)

theorem Hopeful.load (hopeful : system.Hopeful toIndex)
    (sound : system.Sound logStore fromIndex toIndex initially)
    (moves : system.loadStep logStore toIndex = some after) : after.Hopeful toIndex := by
  have loadSound := sound.loads.sound
  rintro ⟨isWaiting, empty, notEnd⟩
  rcases loadStep_cases moves with ⟨thread, rfl, -, quiet⟩ | ⟨batch, isPushing, rfl⟩ |
    ⟨batchEndIndex, isStoring, rfl⟩
  · have inside := (hopeful ⟨isWaiting, empty, notEnd⟩).1
    refine ⟨inside, ?_⟩
    rintro rfl
    simp only [pushedEnd] at quiet
    omega
  · simp at empty
  · simp only [LoadSound, isStoring] at loadSound
    have before := hopeful ⟨isWaiting, empty, by omega⟩
    rw [isStoring] at before
    have notLast : batchEndIndex ≠ toIndex + 1 := fun isLast => before.2 (by rw [isLast])
    simp only [batchSize] at loadSound notEnd ⊢
    exact ⟨by omega, by simp⟩

theorem Hopeful.apply (hopeful : system.Hopeful toIndex)
    (testsLate : system.TestsLate toIndex .apply)
    (moves : system.applyStep toIndex = some after) : after.Hopeful toIndex := by
  rintro ⟨isWaiting, empty, notEnd⟩
  rcases applyStep_cases moves with ⟨loop, turns, rfl⟩ | ⟨_, _, rfl⟩ | ⟨_, _, rfl⟩ | ⟨_, _, rfl⟩
  · cases turns with
    | queued _ queued => exact absurd empty queued
    | more isAt more => exact ⟨more, fun isLast => testsLate ⟨isAt, empty, isLast⟩⟩
    | noneYet isAt => exact hopeful ⟨.inl isAt, empty, notEnd⟩
    | again isAt => exact hopeful ⟨.inr isAt, empty, notEnd⟩
    | _ => simp at isWaiting
  all_goals simp at isWaiting

def remaining (toIndex : ℕ) (system : ReplaySystem) : ℕ :=
  (toIndex - system.batchStartIndex + (batchSize - 1)) / batchSize

def loadRank (toIndex : ℕ) (system : ReplaySystem) : ℕ :=
  match system.loadThread with
  | .testing => 5 * system.remaining toIndex + 1
  | .waiting => 5 * system.remaining toIndex
  | .loading => 5 * system.remaining toIndex - 1
  | .pushing _ => 5 * system.remaining toIndex - 2
  | .storing _ => 5 * system.remaining toIndex - 3
  | .finished | .failed => 0

/-- What the loop that applies has still to do with the batches of the queue. The two tests of
the inner loop follow each other in either order. -/
def applyRank (toIndex : ℕ) (system : ReplaySystem) : ℕ :=
  10 * system.logQueue.length + match system.applyLoop with
    | .committing _ => 10
    | .testingQueue => 9
    | .testingIndex => 8
    | .waitingQueue => if system.batchStartIndex ≠ toIndex ∧ system.logQueue ≠ [] then 6 else 7
    | .waitingIndex => if system.batchStartIndex = toIndex then 6 else 7
    | .peeking => 5
    | .applying _ => 4
    | .popping _ => 3
    | .joining => 1
    | .returned => 0

def measure (toIndex : ℕ) (system : ReplaySystem) : ℕ :=
  30 * system.loadRank toIndex + system.applyRank toIndex

/-- The thread whose step brings the replay nearer to its end. -/
def helpful (toIndex : ℕ) (system : ReplaySystem) : ReplayThread :=
  if system.Waits toIndex ∨ system.applyLoop = .joining ∧ system.loadThread ≠ .finished then .load
  else .apply

theorem loadRank_lt (sound : system.Sound logStore fromIndex toIndex initially)
    (readable : Readable logStore fromIndex toIndex)
    (room : system.loadThread = .waiting → system.logQueue.length ≤ 10)
    (moves : system.loadStep logStore toIndex = some after) :
    after.loadRank toIndex < system.loadRank toIndex := by
  have loadSound := sound.loads.sound
  rw [LoadSound] at loadSound
  rw [loadStep] at moves
  rw [loadRank, loadRank]
  cases isAt : system.loadThread with
  | testing =>
    simp only [isAt] at moves
    cases moves
    by_cases more : system.batchStartIndex < toIndex
    · simp [more, remaining]
    · simp [more]
  | waiting =>
    simp only [isAt] at moves loadSound
    cases moves
    have notFull := Nat.not_lt.mpr (room isAt)
    simp only [notFull, if_false, remaining, batchSize]
    omega
  | loading =>
    simp only [isAt] at moves loadSound
    rcases loadBatch_of_readable readable sound.loads.lower loadSound with ⟨batch, isBatch, -⟩
    simp only [isBatch] at moves
    cases moves
    simp only [remaining, batchSize]
    omega
  | pushing batch =>
    simp only [isAt] at moves loadSound
    cases moves
    simp only [remaining, batchSize]
    omega
  | storing batchEndIndex =>
    simp only [isAt, batchSize] at moves loadSound
    cases moves
    simp only [remaining, batchSize]
    omega
  | finished | failed => simp [isAt] at moves

theorem applyRank_load_le (moves : system.loadStep logStore toIndex = some after) :
    after.applyRank toIndex ≤ system.applyRank toIndex + 11 := by
  rcases loadStep_cases moves with ⟨thread, rfl, -, -⟩ | ⟨batch, -, rfl⟩ |
    ⟨batchEndIndex, -, rfl⟩
  · exact Nat.le_add_right _ _
  · cases isAt : system.applyLoop with
    | waitingQueue =>
      simp only [applyRank, isAt, length_append, length_singleton]
      split <;> split <;> omega
    | waitingIndex | _ =>
      simp only [applyRank, isAt, length_append, length_singleton]
      omega
  · cases isAt : system.applyLoop with
    | waitingQueue | waitingIndex =>
      simp only [applyRank, isAt]
      split <;> split <;> omega
    | _ =>
      simp only [applyRank, isAt]
      omega

theorem measure_load_lt (sound : system.Sound logStore fromIndex toIndex initially)
    (readable : Readable logStore fromIndex toIndex)
    (room : system.loadThread = .waiting → system.logQueue.length ≤ 10)
    (moves : system.loadStep logStore toIndex = some after) :
    after.measure toIndex < system.measure toIndex := by
  have less := loadRank_lt sound readable room moves
  have atMost := applyRank_load_le moves
  rw [measure, measure]
  omega

theorem loadRank_apply (moves : system.applyStep toIndex = some after) :
    after.loadRank toIndex = system.loadRank toIndex := by
  rcases frame_applyStep moves with ⟨sameStart, sameThread⟩
  rw [loadRank, loadRank, remaining, remaining, sameStart, sameThread]

theorem applyRank_lt (sound : system.Sound logStore fromIndex toIndex initially)
    (notWaiting : ¬ system.Waits toIndex) (moves : system.applyStep toIndex = some after) :
    after.applyRank toIndex < system.applyRank toIndex := by
  rw [applyRank, applyRank]
  rcases applyStep_cases moves with ⟨loop, turns, rfl⟩ | ⟨batch, isAt, rfl⟩ | ⟨batch, isAt, rfl⟩ |
    ⟨batch, isAt, rfl⟩
  · cases turns with
    | queued isAt | more isAt | arrived isAt =>
      simp only [isAt]
      split <;> omega
    | noneYet isAt empty =>
      have atEnd : system.batchStartIndex = toIndex := by
        by_contra notEnd
        exact notWaiting ⟨.inl isAt, empty, notEnd⟩
      simp [isAt, empty, atEnd]
    | again isAt notEnd =>
      have queued : system.logQueue ≠ [] :=
        fun empty => notWaiting ⟨.inr isAt, empty, notEnd⟩
      simp [isAt, notEnd, queued]
    | atEnd isAt atEnd => simp [isAt, atEnd]
    | noneQueued isAt | noMore isAt | leave isAt | take isAt | join isAt => simp [isAt]
  · simp [isAt]
  · rcases sound.applies with ⟨position, -, -, applies⟩
    simp only [ApplySound, isAt] at applies
    have nonempty : 0 < system.logQueue.length := by
      cases queued : system.logQueue with
      | nil => simp [queued] at applies
      | cons front rest => simp
    simp only [isAt, length_tail]
    omega
  · simp [isAt]

theorem waits_apply (waits : system.Waits toIndex)
    (moves : system.applyStep toIndex = some after) :
    after.Waits toIndex ∧ after.applyRank toIndex = system.applyRank toIndex := by
  rcases waits with ⟨isWaiting, empty, notEnd⟩
  rw [applyStep] at moves
  rcases isWaiting with isAt | isAt
  · simp only [isAt, empty, if_true] at moves
    cases moves
    simp [Waits, applyRank, isAt, notEnd, empty]
  · simp only [isAt, ne_eq, notEnd, not_false_eq_true, if_true] at moves
    cases moves
    simp [Waits, applyRank, isAt, notEnd, empty]

theorem not_stuck (sound : system.Sound logStore fromIndex toIndex initially)
    (hopeful : system.Hopeful toIndex) : ¬ system.Stuck toIndex := by
  rintro ⟨isFinished, waits⟩
  have inside := (hopeful waits).1
  have loadSound := sound.loads.sound
  simp only [LoadSound, isFinished] at loadSound
  omega

theorem exists_loadStep (sound : system.Sound logStore fromIndex toIndex initially)
    (notFinished : system.loadThread ≠ .finished) :
    ∃ after, system.loadStep logStore toIndex = some after := by
  have loadSound := sound.loads.sound
  rw [LoadSound] at loadSound
  rw [loadStep]
  cases isAt : system.loadThread with
  | finished => exact absurd isAt notFinished
  | failed => simp [isAt] at loadSound
  | _ => exact ⟨_, rfl⟩

theorem exists_applyStep (notReturned : system.applyLoop ≠ .returned)
    (notJoining : ¬ (system.applyLoop = .joining ∧ system.loadThread ≠ .finished)) :
    ∃ after, system.applyStep toIndex = some after := by
  rw [applyStep]
  cases isAt : system.applyLoop with
  | returned => exact absurd isAt notReturned
  | joining =>
    have isFinished : system.loadThread = .finished := by
      by_contra notFinished
      exact notJoining ⟨isAt, notFinished⟩
    simp only [if_pos isFinished]
    exact ⟨_, rfl⟩
  | _ => exact ⟨_, rfl⟩

theorem ready_of_helpful (sound : system.Sound logStore fromIndex toIndex initially)
    (hopeful : system.Hopeful toIndex)
    (isHelpful : system.Waits toIndex ∨
      system.applyLoop = .joining ∧ system.loadThread ≠ .finished) :
    system.loadThread ≠ .finished ∧
      (system.loadThread = .waiting → system.logQueue.length ≤ 10) := by
  have loadSound := sound.loads.sound
  rcases isHelpful with waits | ⟨isJoining, notFinished⟩
  · refine ⟨fun isFinished => not_stuck sound hopeful ⟨isFinished, waits⟩, fun _ => ?_⟩
    rw [waits.2.1]
    exact Nat.zero_le 10
  · refine ⟨notFinished, fun isWaiting => ?_⟩
    have exits := sound.exits
    simp only [ExitSound, isJoining] at exits
    simp only [LoadSound, isWaiting] at loadSound
    omega

theorem helpful_lt (readable : Readable logStore fromIndex toIndex)
    (sound : system.Sound logStore fromIndex toIndex initially) (hopeful : system.Hopeful toIndex)
    (notReturned : system.applyLoop ≠ .returned) :
    ∃ after, system.next logStore toIndex (system.helpful toIndex) = some after ∧
      after.measure toIndex < system.measure toIndex := by
  by_cases waitsForLoad : system.Waits toIndex ∨
      system.applyLoop = .joining ∧ system.loadThread ≠ .finished
  · rw [helpful, if_pos waitsForLoad]
    rcases ready_of_helpful sound hopeful waitsForLoad with ⟨notFinished, room⟩
    rcases exists_loadStep sound notFinished with ⟨after, moves⟩
    exact ⟨after, moves, measure_load_lt sound readable room moves⟩
  · rw [helpful, if_neg waitsForLoad]
    rw [not_or] at waitsForLoad
    rcases exists_applyStep notReturned waitsForLoad.2 with ⟨after, moves⟩
    refine ⟨after, moves, ?_⟩
    have less := applyRank_lt sound waitsForLoad.1 moves
    rw [measure, measure, loadRank_apply moves]
    omega

theorem next_lt_or_same (readable : Readable logStore fromIndex toIndex)
    (sound : system.Sound logStore fromIndex toIndex initially) (thread : ReplayThread) :
    ((system.next logStore toIndex thread).getD system).measure toIndex < system.measure toIndex ∨
      ((system.next logStore toIndex thread).getD system).measure toIndex = system.measure toIndex ∧
        ((system.next logStore toIndex thread).getD system).helpful toIndex =
          system.helpful toIndex := by
  cases moves : system.next logStore toIndex thread with
  | none => exact .inr ⟨rfl, rfl⟩
  | some after =>
    cases thread with
    | load =>
      by_cases full : system.loadThread = .waiting ∧ 10 < system.logQueue.length
      · -- The thread tests the size of the queue again.
        right
        simp only [next, loadStep, full.1, if_pos full.2] at moves
        cases moves
        rcases system with ⟨_, _, _, _, _, _⟩
        cases full.1
        exact ⟨rfl, rfl⟩
      · left
        apply measure_load_lt sound readable _ moves
        intro isWaiting
        exact Nat.not_lt.mp fun long => full ⟨isWaiting, long⟩
    | apply =>
      by_cases waits : system.Waits toIndex
      · rcases waits_apply waits moves with ⟨waitsAfter, sameRank⟩
        right
        constructor
        · simp only [Option.getD_some, measure, loadRank_apply moves, sameRank]
        · simp only [Option.getD_some, helpful, waits, waitsAfter, true_or, if_true]
      · left
        have less := applyRank_lt sound waits moves
        simp only [Option.getD_some, measure, loadRank_apply moves]
        omega

theorem invariant_of_testsLate (readable : Readable logStore fromIndex toIndex)
    (ordered : fromIndex ≤ toIndex)
    (reached : ReachableBy (next logStore toIndex) (TestsLate toIndex) (start fromIndex initially)
      system) :
    system.Sound logStore fromIndex toIndex initially ∧ system.Hopeful toIndex := by
  apply reached.invariant fun system =>
    system.Sound logStore fromIndex toIndex initially ∧ system.Hopeful toIndex
  · refine ⟨sound_start ordered, ?_⟩
    rintro ⟨isWaiting, -⟩
    simp [start] at isWaiting
  · rintro before after thread ⟨sound, hopeful⟩ testsLate moves
    refine ⟨sound.next readable moves, ?_⟩
    cases thread with
    | load => exact hopeful.load sound moves
    | apply => exact hopeful.apply testsLate moves

/--
A replay does not get stuck, and under a fair schedule it returns, if the loop does not test the
index of its outer loop when the last batch is taken and its end is not stored.
-/
theorem replay_returns {log : IndexedLog NuRaft.LogEntry} (coherent : logStore.Coherent log)
    (lower : logStore.startIndex ≤ fromIndex) (ordered : fromIndex ≤ toIndex)
    (upper : toIndex < logStore.nextSlot) (initially : ℕ) :
    (∀ system, ReachableBy (next logStore toIndex) (TestsLate toIndex) (start fromIndex initially)
      system → ¬ system.Stuck toIndex) ∧
    ∀ run schedule, FairRun (next logStore toIndex) (TestsLate toIndex) run schedule →
      run 0 = start fromIndex initially → ∃ time, (run time).applyLoop = .returned := by
  have readable := readable_of_coherent coherent lower upper
  constructor
  · intro system reached
    rcases invariant_of_testsLate readable ordered reached with ⟨sound, hopeful⟩
    exact not_stuck sound hopeful
  · intro run schedule isFair starts
    have invariant : ∀ time, (run time).Sound logStore fromIndex toIndex initially ∧
        (run time).Hopeful toIndex := by
      intro time
      have reached := isFair.reachable time
      rw [starts] at reached
      exact invariant_of_testsLate readable ordered reached
    apply isFair.eventually (fun system => system.applyLoop = .returned) (measure toIndex)
      (helpful toIndex)
    · intro time notReturned isHelpful
      rcases helpful_lt readable (invariant time).1 (invariant time).2 notReturned with
        ⟨after, moves, less⟩
      rw [isFair.moves, isHelpful, moves]
      exact less
    · intro time _
      rw [isFair.moves]
      exact next_lt_or_same readable (invariant time).1 (schedule time)

def takeTurns (time : ℕ) : ReplayThread := if time % 2 = 0 then .load else .apply

theorem takeTurns_fair (thread : ReplayThread) (time : ℕ) :
    ∃ later, time ≤ later ∧ takeTurns later = thread := by
  cases thread with
  | load => exact ⟨2 * time, by omega, by simp [takeTurns]⟩
  | apply => exact ⟨2 * time + 1, by omega, by simp [takeTurns, Nat.add_mod]⟩

theorem replay_returns_takeTurns :
    ∃ run schedule, FairRun (next sampleLog 2) (TestsLate 2) run schedule ∧ run 0 = start 1 0 ∧
      ∃ time, (run time).applyLoop = .returned := by
  have isFair : FairRun (next sampleLog 2) (TestsLate 2)
      (FairRun.runOf (next sampleLog 2) takeTurns (start 1 0)) takeTurns := by
    apply @FairRun.of_ended _ _ _ _ _ _ 26 takeTurns_fair
    · rintro (_ | _) <;> decide +kernel
    · decide +kernel
    · rintro (_ | _) <;> decide +kernel
  rcases coherent_sampleLog with ⟨log, coherent⟩
  have returns := replay_returns coherent (show sampleLog.startIndex ≤ 1 by decide +kernel)
    (show 1 ≤ 2 by decide) (show 2 < sampleLog.nextSlot by decide +kernel) 0
  exact ⟨_, takeTurns, isFair, rfl, returns.2 _ _ isFair rfl⟩

theorem Stuck.next (stuck : system.Stuck toIndex) {thread : ReplayThread}
    (moves : system.next logStore toIndex thread = some after) : after.Stuck toIndex := by
  rcases stuck with ⟨isFinished, waits⟩
  cases thread with
  | load => simp [ReplaySystem.next, loadStep, isFinished] at moves
  | apply =>
    rcases frame_applyStep moves with ⟨-, sameThread⟩
    exact ⟨sameThread.trans isFinished, (waits_apply waits moves).1⟩

def takenEarly : List ReplayThread :=
  replicate 4 .load ++ replicate 8 .apply ++ replicate 2 .load

/-- A replay of two entries that is stuck, and never returns. -/
theorem replay_gets_stuck :
    ∃ system, ReachableBy (next sampleLog 2) (fun _ _ => True) (start 1 0) system ∧
      system.Stuck 2 ∧ ∀ later, ReachableBy (next sampleLog 2) (fun _ _ => True) system later →
        later.Stuck 2 ∧ later.applyLoop ≠ .returned := by
  refine exists_reached_of (Stuck 2) takenEarly (by decide +kernel) ?_
  intro system reached stuck
  refine ⟨stuck, fun later reachedLater => ?_⟩
  have stuckLater : later.Stuck 2 :=
    reachedLater.invariant (Stuck 2) stuck fun stuckBefore _ moves => stuckBefore.next moves
  refine ⟨stuckLater, ?_⟩
  rcases stuckLater.2.1 with isWaiting | isWaiting
  · simp [isWaiting]
  · simp [isWaiting]

end ReplaySystem

end RaftKeeper
