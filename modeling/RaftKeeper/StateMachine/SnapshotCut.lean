import RaftKeeper.Snapshot.Reachable
import RaftKeeper.StateMachine.CommittedLog

/-!
# What a snapshot holds

`NuRaftStateMachine::create_snapshot` waits until the committed queue is empty and then reads the
parts of the store one after the other, while the processor's thread answers local reads. In
asynchronous mode they are copied to a `SnapTask`, which another thread writes later. NuRaft makes
no call of `commit` meanwhile, and the index of the snapshot is the last one passed to `commit`.
-/

namespace RaftKeeper

open List Option

/-- The parts of the store that a snapshot copies. -/
inductive Part
  | zxid
  | sessionId
  | sessions
  | auths
  | acls
  | tree

def Part.all : List Part := [.zxid, .sessionId, .sessions, .auths, .acls, .tree]

def Part.read (store copy : KeeperStore) : Part → KeeperStore
  | zxid => { copy with zxid := store.zxid }
  | sessionId =>
    { copy with sessionManager := { copy.sessionManager with
        sessionIdCounter := store.sessionManager.sessionIdCounter } }
  | sessions =>
    { copy with sessionManager := { copy.sessionManager with
        sessionAndTimeout := store.sessionManager.sessionAndTimeout } }
  | auths => { copy with sessionAndAuth := store.sessionAndAuth }
  | acls => { copy with aclMap := { copy.aclMap with numToAcl := store.aclMap.numToAcl } }
  | tree => { copy with dataTree := store.dataTree }

def Part.Agrees (replica : Replicated) (copy : KeeperStore) : Part → Prop
  | zxid => copy.zxid = replica.zxid
  | sessionId => copy.sessionManager.sessionIdCounter = replica.sessionIdCounter
  | sessions => copy.sessionManager.sessionAndTimeout = replica.sessionAndTimeout
  | auths => copy.sessionAndAuth = replica.sessionAndAuth
  | acls => copy.aclMap.numToAcl = replica.aclMap.numToAcl
  | tree => copy.dataTree = replica.dataTree

theorem Part.agrees_read (part : Part) (store copy : KeeperStore) :
    part.Agrees store.replicated (part.read store copy) := by
  cases part <;> rfl

theorem Part.Agrees.read {replica : Replicated} {copy : KeeperStore} {part : Part}
    (agrees : part.Agrees replica copy) {store : KeeperStore} {other : Part}
    (isStore : store.replicated = replica) : part.Agrees replica (other.read store copy) := by
  subst isStore
  cases part <;> cases other <;> first | exact agrees | rfl

/-- A snapshot that NuRaft has asked for. -/
structure SnapshotRequest where
  lastLogIdx : ℕ
  async : Bool
  /-- The order in which the tables are walked while the snapshot is made. -/
  order : SnapshotOrder

def SnapshotRequest.objects (platform : Platform) (settings : SnapshotSettings)
    (request : SnapshotRequest) (store : KeeperStore) : Option (List SnapshotObject) :=
  if request.async then
    (SnapTask.make platform request.order store).createObjects settings request.order
  else store.createObjects settings request.order

variable {model copy : KeeperStore}

theorem Part.agrees_all (agrees : ∀ part : Part, part.Agrees model.replicated copy) :
    copy.zxid = model.zxid ∧
      copy.sessionManager.sessionIdCounter = model.sessionManager.sessionIdCounter ∧
      copy.sessionManager.sessionAndTimeout = model.sessionManager.sessionAndTimeout ∧
      copy.sessionAndAuth = model.sessionAndAuth ∧
      copy.aclMap.numToAcl = model.aclMap.numToAcl ∧ copy.dataTree = model.dataTree :=
  ⟨agrees .zxid, agrees .sessionId, agrees .sessions, agrees .auths, agrees .acls, agrees .tree⟩

variable {order : SnapshotOrder}

theorem SnapTask.make_congr {platform : Platform}
    (agrees : ∀ part : Part, part.Agrees model.replicated copy) :
    SnapTask.make platform order model = SnapTask.make platform order copy := by
  rcases Part.agrees_all agrees with ⟨zxid, sessionId, sessions, auths, acls, tree⟩
  simp only [SnapTask.make, zxid, sessionId, sessions, auths, acls, tree]

theorem KeeperStore.createObjects_congr {settings : SnapshotSettings}
    (agrees : ∀ part : Part, part.Agrees model.replicated copy) :
    model.createObjects settings order = copy.createObjects settings order := by
  rcases Part.agrees_all agrees with ⟨zxid, sessionId, sessions, auths, acls, tree⟩
  simp only [createObjects, zxid, sessionId, sessions, auths, acls, tree]

/-- Where `create_snapshot` stands: it waits until the queue is drained, and copies. -/
inductive SnapshotStage
  | idle
  | waiting (request : SnapshotRequest)
  | copying (request : SnapshotRequest) (left : List Part) (copy : KeeperStore)

/-- The state machine of a server with the snapshots that it has written. -/
structure SnapshotMachine where
  keeper : Keeper
  lastCommittedIdx : ℕ
  stage : SnapshotStage := .idle
  snapTask : Option (SnapshotRequest × SnapTask) := none
  written : List (SnapshotRequest × List SnapshotObject) := []

/-- The steps of NuRaft, the processor's thread, `create_snapshot` and the snapshot thread. -/
inductive SnapshotCall
  | commit (logIdx : ℕ)
  | push (request : RequestForSession)
  | onError (error : ErrorRequest)
  | run (surroundings : Surroundings) (env : Environment)
  | createSnapshot (async : Bool) (order : SnapshotOrder)
  | proceed
  | snapThread

namespace SnapshotMachine

variable {platform : Platform} {parallel : ℕ} {settings : SnapshotSettings} {log : RaftLog}
  {initial replica : Replicated} {machine after : SnapshotMachine}

def call (parallel : ℕ) (machine : SnapshotMachine) (call : ProcessorCall) :
    Option SnapshotMachine :=
  (machine.keeper.history.next parallel call).map fun history =>
    { machine with keeper := { machine.keeper with history := history } }

def proceed (platform : Platform) (settings : SnapshotSettings) (machine : SnapshotMachine) :
    Option SnapshotMachine :=
  match machine.stage with
  | .idle => none
  | .waiting request =>
    if machine.keeper.history.processor.committedQueue.length ≠ 0 then some machine
    else some { machine with stage := .copying request Part.all (.new 0 []) }
  | .copying request (part :: left) copy =>
    some { machine with stage := .copying request left (part.read machine.keeper.store copy) }
  | .copying request [] copy =>
    if request.async then
      some { machine with
        stage := .idle
        snapTask := some (request, SnapTask.make platform request.order copy) }
    else
      (copy.createObjects settings request.order).map fun objects =>
        { machine with stage := .idle, written := machine.written ++ [(request, objects)] }

def next (platform : Platform) (parallel : ℕ) (settings : SnapshotSettings) (log : RaftLog)
    (machine : SnapshotMachine) : SnapshotCall → Option SnapshotMachine
  | .commit logIdx =>
    (log.entries logIdx).bind fun request =>
      (machine.call parallel (.commit request)).map fun committed =>
        { committed with lastCommittedIdx := logIdx }
  | .push request => machine.call parallel (.push request)
  | .onError error => machine.call parallel (.onError error)
  | .run surroundings env =>
    (machine.keeper.next platform parallel (.run surroundings, env)).map fun keeper =>
      { machine with keeper := keeper }
  | .createSnapshot async order =>
    match machine.stage with
    | .idle => some { machine with
        stage := .waiting { lastLogIdx := machine.lastCommittedIdx, async, order } }
    | .waiting _ | .copying .. => none
  | .proceed => machine.proceed platform settings
  | .snapThread =>
    machine.snapTask.bind fun (request, task) =>
      (task.createObjects settings request.order).map fun objects =>
        { machine with snapTask := none, written := machine.written ++ [(request, objects)] }

/-- NuRaft commits one entry after the other and not during `create_snapshot`, and the reads of the
local sessions leave the replicated state as it is. -/
def Allowed (platform : Platform) (parallel : ℕ) (log : RaftLog) (machine : SnapshotMachine) :
    SnapshotCall → Prop
  | .commit logIdx => machine.stage = .idle ∧ log.IsNext machine.lastCommittedIdx logIdx
  | .run surroundings env => machine.keeper.QuietReads platform parallel surroundings env
  | .push _ | .onError _ | .createSnapshot .. | .proceed | .snapThread => True

/-- The objects are those that are written for a store with exactly the entries up to the index of
the snapshot. -/
def Exact (platform : Platform) (settings : SnapshotSettings) (log : RaftLog) (initial : Replicated)
    (request : SnapshotRequest) (objects : List SnapshotObject) : Prop :=
  ∃ replica, log.stateAt platform initial request.lastLogIdx = some replica ∧
    ∀ model : KeeperStore, model.replicated = replica →
      request.objects platform settings model = some objects

/-- The copy has what was read so far, and nothing is left to be applied. -/
def StageSound (platform : Platform) (log : RaftLog) (initial : Replicated)
    (machine : SnapshotMachine) : Prop :=
  match machine.stage with
  | .idle => True
  | .waiting request => request.lastLogIdx = machine.lastCommittedIdx
  | .copying request left copy =>
    request.lastLogIdx = machine.lastCommittedIdx ∧
      machine.keeper.history.processor.unapplied = [] ∧
      ∃ replica, log.stateAt platform initial request.lastLogIdx = some replica ∧
        ∀ part, part ∈ left ∨ part.Agrees replica copy

/-- Whatever is copied or written is the state that the log leaves at the index of the snapshot. -/
structure CutSound (platform : Platform) (settings : SnapshotSettings) (log : RaftLog)
    (initial : Replicated) (machine : SnapshotMachine) : Prop where
  follows : machine.keeper.Follows platform log initial machine.lastCommittedIdx
  stage : machine.StageSound platform log initial
  task : ∀ request task, machine.snapTask = some (request, task) → request.async = true ∧
    ∃ replica, log.stateAt platform initial request.lastLogIdx = some replica ∧
      ∀ model : KeeperStore, model.replicated = replica →
        SnapTask.make platform request.order model = task
  written : ∀ entry ∈ machine.written, Exact platform settings log initial entry.1 entry.2

section

variable (sound : machine.CutSound platform settings log initial)

include sound

theorem CutSound.call {call : ProcessorCall}
    (sameQueue : ∀ history, machine.keeper.history.next parallel call = some history →
      history.processor.stage = machine.keeper.history.processor.stage ∧
        history.processor.committedQueue = machine.keeper.history.processor.committedQueue)
    (moves : machine.call parallel call = some after) :
    after.CutSound platform settings log initial := by
  rcases map_eq_some_iff.mp moves with ⟨history, isNext, rfl⟩
  rcases sameQueue history isNext with ⟨sameStage, sameCommitted⟩
  refine ⟨sound.follows.of_sameQueue sameStage sameCommitted, ?_, sound.task, sound.written⟩
  have stage := sound.stage
  unfold StageSound RequestProcessor.unapplied at stage ⊢
  rw [sameStage, sameCommitted]
  exact stage

theorem CutSound.commit {logIdx : ℕ} (idle : machine.stage = .idle)
    (isNext : log.IsNext machine.lastCommittedIdx logIdx)
    (moves : machine.next platform parallel settings log (.commit logIdx) = some after) :
    after.CutSound platform settings log initial := by
  rcases bind_eq_some_iff.mp moves with ⟨request, isEntry, commits⟩
  rcases map_eq_some_iff.mp commits with ⟨_, calls, rfl⟩
  rcases map_eq_some_iff.mp calls with ⟨history, isHistory, rfl⟩
  refine ⟨sound.follows.commit isNext isEntry isHistory, ?_, sound.task, sound.written⟩
  simp only [StageSound, idle]

theorem CutSound.run {surroundings : Surroundings} {env : Environment}
    (quiet : machine.keeper.QuietReads platform parallel surroundings env)
    (moves : machine.next platform parallel settings log (.run surroundings env) = some after) :
    after.CutSound platform settings log initial := by
  rcases map_eq_some_iff.mp moves with ⟨keeper, isNext, rfl⟩
  refine ⟨sound.follows.run quiet isNext, ?_, sound.task, sound.written⟩
  have stage := sound.stage
  cases stands : machine.stage with
  | idle => simp only [StageSound]
  | waiting request =>
    simp only [StageSound, stands] at stage ⊢
    exact stage
  | copying request left copy =>
    simp only [StageSound, stands] at stage ⊢
    rcases stage with ⟨sameIdx, drained, agrees⟩
    exact ⟨sameIdx, Keeper.unapplied_run_eq_nil drained isNext, agrees⟩

theorem CutSound.finish {request : SnapshotRequest} {copy : KeeperStore}
    (stands : machine.stage = .copying request [] copy)
    (moves : machine.proceed platform settings = some after) :
    after.CutSound platform settings log initial := by
  have stage := sound.stage
  simp only [StageSound, stands] at stage
  rcases stage with ⟨_, _, replica, isState, agrees⟩
  have agreesAll : ∀ model : KeeperStore, model.replicated = replica →
      ∀ part : Part, part.Agrees model.replicated copy := by
    rintro model rfl part
    exact (agrees part).resolve_left not_mem_nil
  simp only [proceed, stands] at moves
  split at moves
  next async =>
    cases moves
    refine ⟨sound.follows, trivial, ?_, sound.written⟩
    rintro _ _ ⟨⟩
    exact ⟨async, replica, isState, fun model isModel =>
      SnapTask.make_congr (agreesAll model isModel)⟩
  next sync =>
    rcases map_eq_some_iff.mp moves with ⟨objects, isWritten, rfl⟩
    refine ⟨sound.follows, trivial, sound.task, ?_⟩
    intro entry isEntry
    rcases mem_append.mp isEntry with isOld | isNew
    · exact sound.written entry isOld
    · cases mem_singleton.mp isNew
      refine ⟨replica, isState, ?_⟩
      intro model isModel
      rw [SnapshotRequest.objects, if_neg sync,
        KeeperStore.createObjects_congr (agreesAll model isModel)]
      exact isWritten

theorem CutSound.proceed (moves : machine.proceed platform settings = some after) :
    after.CutSound platform settings log initial := by
  have stage := sound.stage
  cases stands : machine.stage with
  | idle => simp [SnapshotMachine.proceed, stands] at moves
  | waiting request =>
    simp only [StageSound, stands] at stage
    simp only [SnapshotMachine.proceed, stands] at moves
    split at moves
    · cases moves
      exact sound
    next isEmpty =>
      cases moves
      have isNil : machine.keeper.history.processor.committedQueue = [] := by
        simpa using isEmpty
      have drained : machine.keeper.history.processor.unapplied = [] := by
        unfold RequestProcessor.unapplied
        split <;> simp [isNil]
      refine ⟨sound.follows, ⟨stage, drained, machine.keeper.store.replicated, ?_, ?_⟩, sound.task,
        sound.written⟩
      · rw [stage]
        exact sound.follows.stateAt drained
      · intro part
        refine .inl ?_
        cases part <;> simp [Part.all]
  | copying request left copy =>
    cases left with
    | nil => exact sound.finish stands moves
    | cons part left =>
      simp only [StageSound, stands] at stage
      rcases stage with ⟨sameIdx, drained, replica, isState, agrees⟩
      have isReplica : machine.keeper.store.replicated = replica := by
        have isStore := sound.follows.stateAt drained
        rw [← sameIdx, isState] at isStore
        exact (some.inj isStore).symm
      simp only [SnapshotMachine.proceed, stands] at moves
      cases moves
      refine ⟨sound.follows, ⟨sameIdx, drained, replica, isState, ?_⟩, sound.task, sound.written⟩
      intro other
      rcases agrees other with isLeft | isCopied
      · rcases mem_cons.mp isLeft with rfl | stillLeft
        · exact .inr (isReplica ▸ other.agrees_read _ copy)
        · exact .inl stillLeft
      · exact .inr (isCopied.read isReplica)

theorem CutSound.snapThread
    (moves : machine.next platform parallel settings log .snapThread = some after) :
    after.CutSound platform settings log initial := by
  rcases bind_eq_some_iff.mp moves with ⟨⟨request, task⟩, isTask, writes⟩
  rcases map_eq_some_iff.mp writes with ⟨objects, isWritten, rfl⟩
  refine ⟨sound.follows, sound.stage, by simp, ?_⟩
  intro entry isEntry
  rcases mem_append.mp isEntry with isOld | isNew
  · exact sound.written entry isOld
  · cases mem_singleton.mp isNew
    rcases sound.task request task isTask with ⟨async, replica, isState, makes⟩
    refine ⟨replica, isState, ?_⟩
    intro model isModel
    rw [SnapshotRequest.objects, if_pos async, makes model isModel]
    exact isWritten

theorem CutSound.next {call : SnapshotCall} (allowed : machine.Allowed platform parallel log call)
    (moves : machine.next platform parallel settings log call = some after) :
    after.CutSound platform settings log initial := by
  cases call with
  | commit logIdx => exact sound.commit allowed.1 allowed.2 moves
  | push request =>
    refine sound.call ?_ moves
    intro history isNext
    rw [ProcessorHistory.next_push isNext]
    exact ⟨rfl, rfl⟩
  | onError error =>
    refine sound.call ?_ moves
    intro history isNext
    rw [(ProcessorHistory.next_onError isNext).2]
    exact ⟨rfl, rfl⟩
  | run surroundings env => exact sound.run allowed moves
  | createSnapshot async order =>
    cases stands : machine.stage with
    | idle =>
      simp only [SnapshotMachine.next, stands, some.injEq] at moves
      subst moves
      exact ⟨sound.follows, rfl, sound.task, sound.written⟩
    | waiting | copying => simp [SnapshotMachine.next, stands] at moves
  | proceed => exact sound.proceed moves
  | snapThread => exact sound.snapThread moves

end

def sampleLog : RaftLog where
  entries
    | 1 | 3 => some Call.sampleSession.request
    | 2 => some (Call.sample 1 (.single (.create { path := ascii "/a" }))).request
    | _ => none
  writes := by
    intro index request isEntry
    split at isEntry <;> cases isEntry <;> rfl

def sampleRun : List SnapshotCall :=
  [.commit 1, .commit 2] ++ replicate 16 (.run (.sample true) .sorted) ++
    [.createSnapshot true .sorted] ++ replicate 8 .proceed ++ [.commit 3] ++
    replicate 8 (.run (.sample true) .sorted) ++ [.snapThread]

-- field by field: a derived instance substitutes an equation between two tables, where evaluation
-- stops
attribute [ext] ACLMap Replicated

instance : DecidableEq ACLMap := fun _ _ => decidable_of_iff' _ ACLMap.ext_iff

instance : DecidableEq Replicated := fun _ _ => decidable_of_iff' _ Replicated.ext_iff

instance {keeper : Keeper} {surroundings : Surroundings} {env : Environment} :
    Decidable (keeper.QuietReads platform parallel surroundings env) :=
  match steps : keeper.history.processor.step parallel surroundings with
  | some (_, .process request) =>
    decidable_of_iff (request.request.isReadRequest = true →
      ∀ after ∈ keeper.store.next platform { request := request, env := env },
        after.replicated = keeper.store.replicated)
      ⟨fun quiet _ _ after taken => by
        cases steps.symm.trans taken
        exact (quiet · after), fun quiet isRead after => quiet _ _ after steps isRead⟩
  | none | some (_, .nothing) | some (_, .respond _) =>
    .isTrue (by simp [Keeper.QuietReads, steps])

instance : (stage : SnapshotStage) → Decidable (stage = .idle)
  | .idle => .isTrue rfl
  | .waiting _ | .copying _ _ _ => .isFalse nofun

instance (machine : SnapshotMachine) : DecidablePred (machine.Allowed platform parallel log) :=
  fun call => by
    unfold Allowed
    split <;> infer_instance

end SnapshotMachine

end RaftKeeper
