import RaftKeeper.Lib.Run
import RaftKeeper.Log.FileLogStore

/-!
# Replaying the log

`NuRaftStateMachine::replayLogs` applies the entries from `fromIndex` to `toIndex`, both included. A
thread loads them in batches of 10000 and pushes them to a queue, from which the loop of the caller
takes them; it sets `batch_start_index` to the end of a batch after it has pushed it. A step is one
access to what both see.
-/

namespace RaftKeeper

open NuRaft (LogEntry)

/-- The entries with indexes from start to end, which is excluded. -/
structure ReplayLogBatch where
  batchStartIndex : ℕ
  batchEndIndex : ℕ
  logEntries : List LogEntryWithVersion
deriving DecidableEq

def ReplayLogBatch.applied (batch : ReplayLogBatch) : List (ℕ × LogEntry) :=
  (batch.logEntries.mapIdx fun position loaded => (batch.batchStartIndex + position, loaded.entry))
    |>.filter fun (_, entry) => entry.valType = appLog

/-- Where the thread that loads the batches stands. -/
inductive LoadThread
  /-- `while (batch_start_index < to)` -/
  | testing
  /-- `while (log_queue.size() > 10)` -/
  | waiting
  | loading
  | pushing (batch : ReplayLogBatch)
  | storing (batchEndIndex : ℕ)
  | finished
  /-- After an exception, or a null pointer that is dereferenced. -/
  | failed
deriving DecidableEq

/-- Where the loop that applies the batches stands. -/
inductive ApplyLoop
  /-- `!log_queue.empty()` of the outer loop. -/
  | testingQueue
  /-- `batch_start_index < to` of the outer loop, once the queue was found empty. -/
  | testingIndex
  /-- `log_queue.empty()` of the inner loop. -/
  | waitingQueue
  /-- `batch_start_index != to` of the inner loop, once the queue was found empty. -/
  | waitingIndex
  | peeking
  | applying (batch : ReplayLogBatch)
  | popping (batch : ReplayLogBatch)
  | committing (batch : ReplayLogBatch)
  | joining
  | returned
deriving DecidableEq

/-- The shared state of the replay, with the entries that were applied. -/
structure ReplaySystem where
  batchStartIndex : ℕ
  logQueue : List ReplayLogBatch
  loadThread : LoadThread
  applyLoop : ApplyLoop
  applied : List (ℕ × LogEntry)
  lastCommittedIdx : ℕ
deriving DecidableEq

/-- The two threads of the replay. -/
inductive ReplayThread
  | load
  | apply
deriving DecidableEq

namespace ReplaySystem

def batchSize : ℕ := 10000

def start (fromIndex lastCommittedIdx : ℕ) : ReplaySystem :=
  ⟨fromIndex, [], .testing, .testingQueue, [], lastCommittedIdx⟩

def loadBatch (logStore : NuRaftFileLogStore) (toIndex batchStartIndex : ℕ) :
    Option ReplayLogBatch :=
  let batchEndIndex := min (batchStartIndex + batchSize) (toIndex + 1)
  match logStore.logEntriesVersionExt batchStartIndex batchEndIndex 0 with
  | .ok (some logEntries) => some ⟨batchStartIndex, batchEndIndex, logEntries⟩
  | _ => none

def loadStep (logStore : NuRaftFileLogStore) (toIndex : ℕ) (system : ReplaySystem) :
    Option ReplaySystem :=
  match system.loadThread with
  | .testing =>
    some { system with
      loadThread := if system.batchStartIndex < toIndex then .waiting else .finished }
  | .waiting =>
    some { system with loadThread := if 10 < system.logQueue.length then .waiting else .loading }
  | .loading =>
    some { system with
      loadThread :=
        match loadBatch logStore toIndex system.batchStartIndex with
        | some batch => .pushing batch
        | none => .failed }
  | .pushing batch =>
    some { system with
      logQueue := system.logQueue ++ [batch]
      loadThread := .storing batch.batchEndIndex }
  | .storing batchEndIndex =>
    some { system with batchStartIndex := batchEndIndex, loadThread := .testing }
  | .finished | .failed => none

def applyStep (toIndex : ℕ) (system : ReplaySystem) : Option ReplaySystem :=
  match system.applyLoop with
  | .testingQueue =>
    some { system with
      applyLoop := if system.logQueue = [] then .testingIndex else .waitingQueue }
  | .testingIndex =>
    some { system with
      applyLoop := if system.batchStartIndex < toIndex then .waitingQueue else .joining }
  | .waitingQueue =>
    some { system with applyLoop := if system.logQueue = [] then .waitingIndex else .peeking }
  | .waitingIndex =>
    some { system with
      applyLoop := if system.batchStartIndex ≠ toIndex then .waitingQueue else .peeking }
  | .peeking =>
    some { system with
      applyLoop :=
        match system.logQueue with
        | [] => .joining
        | batch :: _ => .applying batch }
  | .applying batch =>
    some { system with applied := system.applied ++ batch.applied, applyLoop := .popping batch }
  | .popping batch =>
    some { system with logQueue := system.logQueue.tail, applyLoop := .committing batch }
  | .committing batch =>
    some { system with
      lastCommittedIdx := batch.batchEndIndex - 1
      applyLoop := .testingQueue }
  | .joining =>
    if system.loadThread = .finished then some { system with applyLoop := .returned } else none
  | .returned => none

def next (logStore : NuRaftFileLogStore) (toIndex : ℕ) (system : ReplaySystem) :
    ReplayThread → Option ReplaySystem
  | .load => system.loadStep logStore toIndex
  | .apply => system.applyStep toIndex

end ReplaySystem

/-- The exceptions of `replayLogs`. -/
inductive ReplayError
  /-- "Logs in log store is stale." -/
  | staleLog
  /-- "There is log gap between snapshot and log store, {} / {}" -/
  | gapBetweenSnapshotAndLog
  /-- "Last committed index is large than last log index in logstore, {} / {}" -/
  | beyondLog
deriving DecidableEq

/-- `replayLogs` up to the start of the threads; `none` when there is nothing to replay. -/
def replayLogs (logStore : Option NuRaftFileLogStore) (fromIndex toIndex lastCommittedIdx : ℕ) :
    Except ReplayError (Option ReplaySystem) :=
  match logStore with
  | none => .ok none
  | some logStore =>
    let lastIndexInStore := logStore.nextSlot - 1
    if lastIndexInStore = 0 then .ok none
    else if lastIndexInStore < fromIndex then .error .staleLog
    else if fromIndex < logStore.startIndex then .error .gapBetweenSnapshotAndLog
    else if lastIndexInStore < toIndex then .error .beyondLog
    else .ok (some (.start fromIndex lastCommittedIdx))

end RaftKeeper
