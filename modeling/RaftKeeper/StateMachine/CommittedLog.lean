import RaftKeeper.Processor.CommitOrder
import RaftKeeper.Processor.Keeper
import RaftKeeper.Store.Replicated

/-!
# The store follows the log

`NuRaftStateMachine::commit` only puts the request of a log entry into the committed queue, whose
thread applies it later. At any time the store is what the entries up to some index leave, and the
queue holds those from there to the last index passed to `commit`. A request in the log is no read.
-/

namespace RaftKeeper

open List

/-- The committed entries by index; configuration entries leave gaps, and no entry is a read. -/
structure RaftLog where
  entries : ℕ → Option RequestForSession
  writes : ∀ {index request}, entries index = some request → request.request.isReadRequest = false

def RequestForSession.entry (request : RequestForSession) : LogEntry where
  sessionId := request.sessionId
  xid := request.xid
  request := request.request
  processTime := request.processTime

def Replicated.applyEntry (platform : Platform) (replica : Replicated) (entry : LogEntry) :
    Option Replicated :=
  (replica.apply platform entry).map Prod.fst

namespace RaftLog

variable {log : RaftLog} {platform : Platform} {initial : Replicated} {last index : ℕ}
  {request : RequestForSession}

def entriesTo (log : RaftLog) (index : ℕ) : List RequestForSession :=
  (range' 1 index).filterMap log.entries

/-- What the entries 1 to `index` leave; `none` when the process does not survive them. -/
def stateAt (platform : Platform) (initial : Replicated) (log : RaftLog) (index : ℕ) :
    Option Replicated :=
  runFrom (Replicated.applyEntry platform) initial ((log.entriesTo index).map (·.entry))

def IsNext (log : RaftLog) (last index : ℕ) : Prop :=
  last < index ∧ ∀ between, last < between → between < index → log.entries between = none

instance (last index : ℕ) : Decidable (log.IsNext last index) :=
  decidable_of_iff (last < index ∧ ∀ between < index, last < between → log.entries between = none)
    ⟨fun ⟨above, silent⟩ => ⟨above, fun between isAbove isBelow => silent between isBelow isAbove⟩,
      fun ⟨above, silent⟩ => ⟨above, fun between isBelow isAbove => silent between isAbove isBelow⟩⟩

theorem isReadRequest_of_mem (isMember : request ∈ log.entriesTo index) :
    request.request.isReadRequest = false := by
  rcases mem_filterMap.mp isMember with ⟨_, _, isEntry⟩
  exact log.writes isEntry

theorem entriesTo_next (isNext : log.IsNext last index)
    (isEntry : log.entries index = some request) :
    log.entriesTo index = log.entriesTo last ++ [request] := by
  rcases isNext with ⟨above, noEntry⟩
  -- The range up to `index` is the one up to `last`, a part without requests, and `index` itself.
  have split : range' 1 index =
      range' 1 last ++ (range' (1 + last) (index - last - 1) ++ [index]) := by
    have isRange : range' index 1 = [index] := rfl
    rw [← isRange]
    have first := @range'_append_1 (1 + last) (index - last - 1) 1
    have second := @range'_append_1 1 last (index - last)
    have sizes : 1 + last + (index - last - 1) = index := by omega
    have total : index - last - 1 + 1 = index - last := by omega
    have whole : last + (index - last) = index := by omega
    rw [sizes, total] at first
    rw [whole] at second
    rw [first, second]
  have silent : (range' (1 + last) (index - last - 1)).filterMap log.entries = [] := by
    rw [filterMap_eq_nil_iff]
    intro between isBetween
    rcases mem_range'_1.mp isBetween with ⟨isAbove, isBelow⟩
    exact noEntry between (by omega) (by omega)
  rw [entriesTo, split, filterMap_append, filterMap_append, silent]
  simp [entriesTo, isEntry]

end RaftLog

namespace Keeper

variable {log : RaftLog} {platform : Platform} {initial : Replicated} {parallel last : ℕ}
  {keeper after : Keeper} {env : Environment} {surroundings : Surroundings}

open RequestProcessor

/-- A read that the processor applies in this step leaves the replicated state as it is. -/
def QuietReads (platform : Platform) (parallel : ℕ) (keeper : Keeper) (surroundings : Surroundings)
    (env : Environment) : Prop :=
  ∀ processor request after,
    keeper.history.processor.step parallel surroundings = some (processor, .process request) →
      request.request.isReadRequest = true →
        keeper.store.next platform { request := request, env := env } = some after →
          after.replicated = keeper.store.replicated

/-- The store is what the first entries leave, and the others up to `last` are in the queue. -/
def Follows (platform : Platform) (log : RaftLog) (initial : Replicated) (last : ℕ)
    (keeper : Keeper) : Prop :=
  keeper.history.processor.PopSound ∧
    ∃ done, done ++ keeper.history.processor.unapplied = log.entriesTo last ∧
      runFrom (Replicated.applyEntry platform) initial (done.map (·.entry)) =
        some keeper.store.replicated

theorem Follows.stateAt (follows : keeper.Follows platform log initial last)
    (drained : keeper.history.processor.unapplied = []) :
    log.stateAt platform initial last = some keeper.store.replicated := by
  rcases follows with ⟨_, done, isLog, applied⟩
  rw [drained, append_nil] at isLog
  rw [RaftLog.stateAt, ← isLog]
  exact applied

variable {request : RequestForSession} {store : KeeperStore} {answers : List ResponseForSession}

theorem serve_process (isWrite : request.request.isReadRequest = false)
    (serves : (Handed.process request).serve platform env keeper.store = some (store, answers)) :
    keeper.store.replicated.applyEntry platform request.entry = some store.replicated := by
  simp only [Handed.serve] at serves
  split at serves
  next returns =>
    cases serves
    have refines := @KeeperStore.processRequest_refines platform keeper.store
      { request := request, env := env } ⟨rfl, rfl⟩
    rcases refines store (by rw [returns]; rfl) with ⟨reply, applied, _⟩
    rw [Replicated.applyEntry]
    exact congrArg (Option.map Prod.fst) applied
  · simp [isWrite] at serves
  · cases serves
  · cases serves

theorem next_of_serve
    (serves : (Handed.process request).serve platform env keeper.store = some (store, answers)) :
    keeper.store.next platform { request := request, env := env } = some store := by
  simp only [Handed.serve] at serves
  rw [KeeperStore.next]
  split at serves
  next returns =>
    cases serves
    rw [returns]
    rfl
  next throws =>
    split at serves
    · cases serves
      rw [throws]
      rfl
    · cases serves
  · cases serves
  · cases serves

theorem Follows.run (follows : keeper.Follows platform log initial last)
    (quiet : keeper.QuietReads platform parallel surroundings env)
    (moves : keeper.next platform parallel (.run surroundings, env) = some after) :
    after.Follows platform log initial last := by
  rcases follows with ⟨_, done, isLog, applied⟩
  rcases Option.bind_eq_some_iff.mp moves with ⟨⟨processor, handed⟩, steps, serves⟩
  rcases Option.map_eq_some_iff.mp serves with ⟨⟨store, answers⟩, isServed, rfl⟩
  have transition := @Transition.of_step parallel surroundings _ _ _ steps
  rw [Follows, ProcessorHistory.hand_processor]
  refine ⟨popSound_transition transition, ?_⟩
  generalize isHanded : handed = given at transition
  cases committedStep_transition transition with
  | none same onlyReads =>
    refine ⟨done, same ▸ isLog, ?_⟩
    have sameReplicated : store.replicated = keeper.store.replicated := by
      cases handed with
      | nothing | respond response =>
        cases isServed
        rfl
      | process request =>
        have isRead := onlyReads isHanded.symm
        exact quiet processor request store steps isRead (next_of_serve isServed)
    rw [applied, sameReplicated]
  | @first request taken isFirst sameLogged =>
    have isWrite : taken.request.isReadRequest = false := by
      have isLogged : request ∈ log.entriesTo last := by
        rw [← isLog, isFirst]
        exact mem_append_right _ mem_cons_self
      have noRead : request.request.isReadRequest = false := RaftLog.isReadRequest_of_mem isLogged
      have sameRequest : taken.logged.request = request.logged.request := by rw [sameLogged]
      exact (congrArg Request.isReadRequest sameRequest).trans noRead
    have isProcessed : handed = .process taken := by
      rw [isHanded, applyRequest, if_neg (by simp [isWrite])]
    refine ⟨done ++ [request], ?_, ?_⟩
    · rw [← isLog, isFirst, append_assoc]
      rfl
    · have sameEntry : taken.entry = request.entry := by
        have same : taken.logged.entry = request.logged.entry := by rw [sameLogged]
        exact same
      rw [isProcessed] at isServed
      rw [map_append, runFrom_append, applied]
      simp only [map_cons, map_nil, Option.bind_some, runFrom]
      rw [← sameEntry, serve_process isWrite isServed]

variable {history : ProcessorHistory}

theorem Follows.commit {index : ℕ} (follows : keeper.Follows platform log initial last)
    (isNext : log.IsNext last index) (isEntry : log.entries index = some request)
    (moves : keeper.history.next parallel (.commit request) = some history) :
    Follows platform log initial index { keeper with history := history } := by
  rcases follows with ⟨popSound, done, isLog, applied⟩
  rw [ProcessorHistory.next_commit moves]
  refine ⟨fun _ => by simp, done, ?_, applied⟩
  rw [unapplied_commit popSound, RaftLog.entriesTo_next isNext isEntry, ← isLog, append_assoc]

theorem Follows.of_sameQueue (follows : keeper.Follows platform log initial last)
    (sameStage : history.processor.stage = keeper.history.processor.stage)
    (sameQueue : history.processor.committedQueue = keeper.history.processor.committedQueue) :
    Follows platform log initial last { keeper with history := history } := by
  rw [Follows, PopSound, unapplied, sameStage, sameQueue]
  exact follows

theorem unapplied_run_eq_nil (drained : keeper.history.processor.unapplied = [])
    (moves : keeper.next platform parallel (.run surroundings, env) = some after) :
    after.history.processor.unapplied = [] := by
  rcases next_run moves with ⟨processor, handed, store, answers, transition, _, rfl⟩
  rw [ProcessorHistory.hand_processor]
  cases committedStep_transition transition with
  | none same => rw [same, drained]
  | first isFirst =>
    rw [drained] at isFirst
    cases isFirst

end Keeper

end RaftKeeper
