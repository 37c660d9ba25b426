import RaftKeeper.StateMachine.ReplayInvariant

/-!
# What a replay applies

A replay that returns with an empty queue has applied what was loaded, in order. The thread stops at
`batch_start_index < to`, so if a batch ends right before `to`, then `to` is not loaded. And the
loop tests first the queue and then the index: when the thread pushes and stores between the two
tests, the last batch is left in the queue.
-/

namespace RaftKeeper

open NuRaft (LogEntry)

namespace ReplaySystem

variable {logStore : NuRaftFileLogStore} {fromIndex toIndex initially : ℕ}
  {system after : ReplaySystem}

/-- The thread is about to store the end of its last batch. -/
def storesLast (toIndex : ℕ) (system : ReplaySystem) : Bool :=
  match system.loadThread with
  | .storing batchEndIndex => toIndex ≤ batchEndIndex
  | _ => false

/-- The thread does not store its last index between the two tests of the outer loop, if it has
pushed a batch since the first one. -/
def LeavesNone (toIndex : ℕ) (system : ReplaySystem) : ReplayThread → Prop
  | .load => ¬ (system.applyLoop = .testingIndex ∧ system.logQueue ≠ [] ∧
      system.storesLast toIndex = true)
  | .apply => True

instance (toIndex : ℕ) (system : ReplaySystem) :
    (thread : ReplayThread) → Decidable (system.LeavesNone toIndex thread)
  | .load => inferInstanceAs (Decidable (¬ (_ ∧ _ ∧ _)))
  | .apply => .isTrue trivial

def Drains (toIndex : ℕ) (system : ReplaySystem) : Prop :=
  match system.applyLoop with
  | .testingIndex => system.logQueue ≠ [] → system.batchStartIndex < toIndex
  | .joining | .returned => system.logQueue = []
  | _ => True

theorem Drains.load (drains : system.Drains toIndex)
    (sound : system.Sound logStore fromIndex toIndex initially)
    (leavesNone : system.LeavesNone toIndex .load)
    (moves : system.loadStep logStore toIndex = some after) : after.Drains toIndex := by
  have loadSound := sound.loads.sound
  have exits := sound.exits
  rw [Drains] at drains ⊢
  rcases loadStep_cases moves with ⟨thread, rfl, -, -⟩ | ⟨batch, isPushing, rfl⟩ |
    ⟨batchEndIndex, isStoring, rfl⟩
  · exact drains
  · simp only [LoadSound, isPushing] at loadSound
    cases isAt : system.applyLoop with
    | testingIndex => exact fun _ => loadSound.1
    | joining =>
      simp only [ExitSound, isAt] at exits
      omega
    | returned => simp [ExitSound, isAt, isPushing] at exits
    | _ => simp only
  · cases isAt : system.applyLoop with
    | testingIndex =>
      intro queued
      by_contra notBelow
      apply leavesNone
      exact ⟨isAt, queued, by simpa [storesLast, isStoring] using notBelow⟩
    | joining | returned =>
      simp only [isAt] at drains
      exact drains
    | _ => simp only

theorem Drains.apply (drains : system.Drains toIndex)
    (moves : system.applyStep toIndex = some after) : after.Drains toIndex := by
  rw [Drains] at drains
  rcases applyStep_cases moves with ⟨loop, turns, rfl⟩ | ⟨_, _, rfl⟩ | ⟨_, _, rfl⟩ | ⟨_, _, rfl⟩
  · cases turns with
    | noneQueued _ empty => exact fun queued => absurd empty queued
    | noMore isAt noMore =>
      simp only [isAt] at drains
      exact not_imp_comm.mp drains noMore
    | leave _ empty => exact empty
    | join isAt =>
      simp only [isAt] at drains
      exact drains
    | _ => trivial
  all_goals trivial

theorem replayLogs_inRange {log : IndexedLog LogEntry} (coherent : logStore.Coherent log)
    (lower : logStore.startIndex ≤ fromIndex) (ordered : fromIndex ≤ toIndex)
    (upper : toIndex < logStore.nextSlot) (lastCommittedIdx : ℕ) :
    replayLogs (some logStore) fromIndex toIndex lastCommittedIdx =
      .ok (some (start fromIndex lastCommittedIdx)) := by
  have positive : 0 < logStore.startIndex := by
    rw [NuRaftFileLogStore.startIndex, coherent.represents.first]
    exact coherent.represents.positive
  simp only [replayLogs]
  rw [if_neg (by omega), if_neg (by omega), if_neg (by omega), if_neg (by omega)]

/-- Every entry of the range is applied once and in order. -/
def Complete (logStore : NuRaftFileLogStore) (fromIndex toIndex : ℕ) (system : ReplaySystem) :
    Prop :=
  system.applied = appEntries logStore fromIndex (toIndex + 1) ∧ system.lastCommittedIdx = toIndex

/--
A replay that returns is complete, if its range is not a multiple of the size of a batch longer
than one entry and the thread does not store its last index between the two tests of the outer
loop. For the other ranges it is not complete.
-/
theorem replay_complete {log : IndexedLog LogEntry} (coherent : logStore.Coherent log)
    (lower : logStore.startIndex ≤ fromIndex) (ordered : fromIndex ≤ toIndex)
    (upper : toIndex < logStore.nextSlot) (initially : ℕ) :
    replayLogs (some logStore) fromIndex toIndex initially =
      .ok (some (start fromIndex initially)) ∧
    ∀ system, ReachableBy (next logStore toIndex) (LeavesNone toIndex) (start fromIndex initially)
        system → system.applyLoop = .returned →
      ((toIndex - fromIndex) % batchSize ≠ 0 → system.Complete logStore fromIndex toIndex) ∧
      ((toIndex - fromIndex) % batchSize = 0 → initially < fromIndex →
        ¬ system.Complete logStore fromIndex toIndex) := by
  refine ⟨replayLogs_inRange coherent lower ordered upper initially, ?_⟩
  intro system reached isReturned
  have readable := readable_of_coherent coherent lower upper
  have invariant : system.Sound logStore fromIndex toIndex initially ∧ system.Drains toIndex := by
    apply reached.invariant fun system =>
      system.Sound logStore fromIndex toIndex initially ∧ system.Drains toIndex
    · exact ⟨sound_start ordered, trivial⟩
    · rintro before after thread ⟨sound, drains⟩ leavesNone moves
      refine ⟨sound.next readable moves, ?_⟩
      cases thread with
      | load => exact drains.load sound leavesNone moves
      | apply => exact drains.apply moves
  rcases invariant with ⟨⟨loads, ⟨position, lowerPosition, tiles, applies⟩, exits⟩, drains⟩
  simp only [ExitSound, isReturned] at exits
  simp only [Drains, isReturned] at drains
  simp only [ApplySound, isReturned] at applies
  have loadSound := loads.sound
  simp only [LoadSound, exits] at loadSound
  simp only [pushedEnd, exits, drains] at tiles
  have isEnd : position = system.batchStartIndex := by
    cases tiles
    rfl
  rw [isEnd, CommittedBefore] at applies
  have upperStart := loads.upper
  constructor
  · intro notMultiple
    have atEnd : system.batchStartIndex = toIndex + 1 := by
      by_contra notEnd
      have inside : system.batchStartIndex = toIndex := by omega
      apply notMultiple
      have aligned := loads.aligned inside.le
      rwa [inside] at aligned
    rw [atEnd, if_neg (by omega)] at applies
    exact applies
  · rintro isMultiple early ⟨-, committed⟩
    have inside : system.batchStartIndex = toIndex := by
      by_contra notInside
      exact loads.ended (by omega) isMultiple
    rw [inside, committed] at applies
    have last := applies.2
    split at last
    · omega
    · omega

def loadFirst : List ReplayThread := List.replicate 6 .load ++ List.replicate 9 .apply

theorem replay_complete_loadFirst :
    ∃ system, ReachableBy (next sampleLog 2) (LeavesNone 2) (start 1 0) system ∧
      system.applyLoop = .returned ∧ system.applied = [(1, appEntry 1), (2, appEntry 2)] ∧
      system.Complete sampleLog 1 2 := by
  rcases coherent_sampleLog with ⟨log, coherent⟩
  refine exists_reached_of (fun system => system.applyLoop = .returned ∧
    system.applied = [(1, appEntry 1), (2, appEntry 2)]) loadFirst (by decide +kernel) ?_
  rintro system reached ⟨isReturned, applied⟩
  have complete := (replay_complete coherent (by decide +kernel) (by decide) (by decide +kernel)
    0).2 system reached isReturned
  exact ⟨isReturned, applied, complete.1 (by decide)⟩

def nothingLoaded : List ReplayThread := [.load, .apply, .apply, .apply]

def queueLeft : List ReplayThread := [.apply] ++ List.replicate 6 .load ++ [.apply, .apply]

/--
Replays that return without having applied anything: one entry, which the thread takes for
the end of the range, and two entries that are pushed and left in the queue.
-/
theorem replay_incomplete :
    (∃ system, ReachableBy (next sampleLog 1) (fun _ _ => True) (start 1 0) system ∧
      system.applyLoop = .returned ∧ system.applied = [] ∧ system.lastCommittedIdx = 0 ∧
      appEntries sampleLog 1 2 = [(1, appEntry 1)]) ∧
    ∃ system, ReachableBy (next sampleLog 2) (fun _ _ => True) (start 1 0) system ∧
      system.applyLoop = .returned ∧ system.applied = [] ∧ system.lastCommittedIdx = 0 ∧
      appEntries sampleLog 1 3 = [(1, appEntry 1), (2, appEntry 2)] := by
  constructor
  · exact exists_reached nothingLoaded (by decide +kernel)
  · exact exists_reached queueLeft (by decide +kernel)

end ReplaySystem

end RaftKeeper
