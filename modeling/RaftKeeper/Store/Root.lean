import RaftKeeper.Store.Attached

/-!
# The root

`getParentPath "/"` is the root itself, so the root passes for an ordinary child and a
Remove takes it out of the tree once it has no children. The other operations leave it
there, and so does a Multi that is rolled back, even one that had removed the root.
-/

namespace RaftKeeper

open Finmap List

set_option maxRecDepth 10000

def SingleRequest.removesRoot (state : StoreState) (request : SingleRequest) : Bool :=
  (request.removed state).any fun removed => removed.1 = rootPath

section

variable {zxid session time : Int64} {before after : StoreState} {undo : Undo}

theorem Effect.root_mem (effect : Effect zxid session time before after undo)
    (keeps : undo.removesRoot = false) (present : rootPath ∈ before.dataTree) :
    rootPath ∈ after.dataTree := by
  cases effect with
  | auths => exact present
  | create => exact mem_insert.mpr (.inr (mem_modify.mpr present))
  | remove found childless parentFound =>
    refine mem_erase.mpr ⟨fun isRoot => ?_, mem_modify.mpr present⟩
    simp [Undo.removesRoot, removeUndo, ← isRoot] at keeps
  | set data found => exact mem_insert.mpr (.inr present)

theorem StoreRequestMultiTxn.Leaves.root_mem {trace : Trace} {rolledBack : Bool}
    (leaves : Leaves zxid session time before trace rolledBack [] after)
    (sound : OwnershipSound before) (present : rootPath ∈ before.dataTree)
    (keeps : rolledBack = true ∨ ∀ entry ∈ trace, entry.2.removesRoot = false) :
    rootPath ∈ after.dataTree := by
  rcases leaves with ⟨executed, chain, ending⟩
  split at ending
  · rw [append_nil] at ending
    exact (chain.ownersRestored sound ending).owners.mem_iff.mpr present
  next succeeds =>
    rw [ending]
    exact chain.invariant (rootPath ∈ ·.dataTree) (fun _ undo => undo.removesRoot = false)
      (fun effect present keeps => effect.root_mem keeps present) present
      (keeps.resolve_left succeeds)

end

theorem mem_foldl_dropEphemeral {path : Bytes} {paths : List Bytes} (unlisted : path ∉ paths)
    {tree : DataTree} (present : path ∈ tree) : path ∈ paths.foldl dropEphemeral tree := by
  induction paths generalizing tree with
  | nil => exact present
  | cons first rest ih =>
    simp only [mem_cons, not_or] at unlisted
    exact ih unlisted.2 (mem_erase.mpr ⟨unlisted.1, mem_modify.mpr present⟩)

namespace KeeperStore

/-- No Remove that a call starts is for a root without children, or a failing Multi takes
it back. -/
def keepsRoot (platform : Platform) (store : KeeperStore) (call : Call) : Prop :=
  store.rollsBack platform call = true ∨
    ∀ step ∈ store.steps platform call, step.2.removesRoot step.1 = false

instance {platform : Platform} {store : KeeperStore} {call : Call} :
    Decidable (store.keepsRoot platform call) :=
  inferInstanceAs (Decidable (_ ∨ _))

theorem trace_removesRoot {platform : Platform} {store : KeeperStore} {call : Call}
    (keeps : ∀ step ∈ store.steps platform call, step.2.removesRoot step.1 = false) :
    ∀ entry ∈ store.trace platform call, entry.2.removesRoot = false := by
  rintro ⟨state, undo⟩ isMember
  rcases exists_step_of_trace isMember with ⟨request, isStep, undone⟩
  have keepsHere := keeps _ isStep
  cases undone with
  | nothing | create | set => rfl
  | remove removed =>
    simp only [SingleRequest.removesRoot, removed, Option.any_some] at keepsHere
    exact keepsHere

end KeeperStore

theorem CallEffect.root_mem {platform : Platform} {store : KeeperStore} {call : Call}
    {after : StoreState} (effect : CallEffect platform store call after)
    (sound : OwnershipSound store.toStoreState) (present : rootPath ∈ store.dataTree)
    (keeps : store.keepsRoot platform call) : rootPath ∈ after.dataTree := by
  cases effect with
  | leaves zxid leaves =>
    exact leaves.root_mem sound present (keeps.imp_right KeeperStore.trace_removesRoot)
  | auth => exact present
  | setACL => exact mem_insert.mpr (.inr present)
  | close order session =>
    refine mem_foldl_dropEphemeral (fun isMember => ?_) present
    -- no session owns the root
    rcases sound.indexed.owned (order.mem_list.mp isMember) with ⟨root, found, isEphemeral, _⟩
    rw [sound.indexed.root found] at isEphemeral
    cases isEphemeral

theorem KeeperStore.Started.root_mem {platform : Platform} {start : KeeperStore}
    (started : Started platform start) : rootPath ∈ start.dataTree := by
  rcases started with ⟨interval, digest, starts⟩
  rcases Option.map_eq_some_iff.mp starts with ⟨tree, added, rfl⟩
  refine addSystemNodes_invariant (rootPath ∈ ·) added ?_ ?_ ?_
  · exact (mem_singleton _ _ _).mpr rfl
  · intro before path after systemPath present added
    rcases addSystemNode_cases added systemPath with rfl | ⟨_, _, _, rfl⟩
    · exact present
    · exact mem_insert.mpr (.inr (mem_modify.mpr present))
  · exact fun path data present => mem_modify.mpr present

theorem StoreState.create_error_ne_znonode {state : StoreState} {request : CreateRequest}
    (parentPresent : getParentPath request.path ∈ state.dataTree) (zxid session time : Int64) :
    (state.create zxid session time request).2.1.error ≠ .znonode := by
  rcases Option.isSome_iff_exists.mp (lookup_isSome.mpr parentPresent) with ⟨parent, found⟩
  simp only [StoreState.create, found]
  repeat' split
  all_goals simp

namespace KeeperStore

theorem updateWatches_zok {env : Environment} {manager : WatchManager} {session : Int64}
    {request : Request} {response : Response} {event : ResponseForSession}
    (isMember : event ∈ (updateWatches env manager session request response).2) :
    event.response.error = .zok := by
  have triggered : ∀ {manager : WatchManager} {pairs : List (Bytes × OpNum)},
      event ∈ (triggerWatches env manager pairs).2 → event.response.error = .zok := by
    intro manager pairs isMember
    induction pairs generalizing manager with
    | nil => simp [triggerWatches] at isMember
    | cons pair rest ih =>
      rcases mem_append.mp isMember with first | later
      · exact WatchManager.processWatches_zok first
      · exact ih later
  unfold updateWatches at isMember
  repeat' split at isMember
  · simp at isMember
  · simp at isMember
  · exact triggered isMember
  · simp at isMember

variable {platform : Platform} {start store after : KeeperStore} {call : Call}

theorem processRequest_create_ne_znonode {request : CreateRequest}
    (parentPresent : getParentPath request.path ∈ store.dataTree)
    (isCreate : call.request.request = .single (.create request))
    {answers : List ResponseForSession}
    (returned : store.processRequest platform call = .returned (after, answers)) :
    ∀ answer ∈ answers, answer.response.error ≠ .znonode := by
  have responded : ∀ {store : KeeperStore} {state response},
      getParentPath request.path ∈ store.dataTree →
      store.respond platform call = .returned (state, response) → response.error ≠ .znonode := by
    intro store state response parentPresent responds
    simp only [respond, isCreate, StoreRequest.make, StoreRequest.process,
      StoreState.process] at responds
    split at responds <;> cases responds
    · simp
    · exact StoreState.create_error_ne_znonode parentPresent _ _ _
  have dispatched : ∀ store : KeeperStore, getParentPath request.path ∈ store.dataTree →
      store.dispatch platform call = .returned (after, answers) →
      ∀ answer ∈ answers, answer.response.error ≠ .znonode := by
    intro store parentPresent dispatches
    simp only [dispatch, isCreate, processSessionRequest, processStoreRequest] at dispatches
    split at dispatches
    · cases dispatches
      simp
    · split at dispatches
      · cases dispatches
      · split at dispatches <;> cases dispatches
        rename_i state response responds
        intro answer isMember
        unfold Call.setResponse at isMember
        split at isMember
        · simp at isMember
        · rcases mem_append.mp isMember with event | own
          · simp [updateWatches_zok event]
          · rw [mem_singleton.mp own]
            exact responded parentPresent responds
  unfold processRequest at returned
  split at returned
  · exact dispatched _ parentPresent returned
  · rename_i zxid _
    split at returned
    · cases returned
    · exact dispatched { store with zxid := zxid } parentPresent returned

/--
In every state reached by calls that keep the root, the root is there; so a Create of a
child of the root is never answered with `ZNONODE`.
-/
theorem root_persists (started : Started platform start)
    (reached : ReachableBy (next platform) (keepsRoot platform) start store) :
    rootPath ∈ store.dataTree ∧
      ∀ (call : Call) (request : CreateRequest) (name : Bytes) (after : KeeperStore)
        (answers : List ResponseForSession), slash ∉ name → request.path = slash :: name →
        call.request.request = .single (.create request) →
        store.processRequest platform call = .returned (after, answers) →
        ∀ answer ∈ answers, answer.response.error ≠ .znonode := by
  have sound := reached.invariant
    (fun store => OwnershipSound store.toStoreState ∧ rootPath ∈ store.dataTree)
    ⟨started.ownershipSound, started.root_mem⟩ fun holds keeps moves =>
      ⟨(next_callEffect moves).ownershipSound holds.1,
        (next_callEffect moves).root_mem holds.1 holds.2 keeps⟩
  refine ⟨sound.2, fun call request name after answers noSlash path isCreate returned => ?_⟩
  refine processRequest_create_ne_znonode ?_ isCreate returned
  rw [path, getParentPath_slash_cons noSlash]
  exact sound.2

def removeRootRun : List Call :=
  [.sampleSession, .sample 1 (.single (.remove { path := ascii "/zookeeper/config" })),
    .sample 1 (.single (.remove { path := ascii "/zookeeper" })),
    .sample 1 (.single (.remove { path := ascii "/" }))]

/-- Once its children are gone, a client can remove the root, and nothing can be created again. -/
theorem remove_root_succeeds :
    ∃ store, ReachableBy (next .sample) (fun _ _ => True) sample store ∧ rootPath ∉ store.dataTree ∧
      (store.processRequest .sample
        (.sample 1 (.single (.create { path := ascii "/x" })))).errors = some [.znonode] := by
  exact exists_reached removeRootRun (by decide)

def rolledBackRootRun : List Call :=
  [.sampleSession, .sample 1 (.single (.remove { path := ascii "/zookeeper/config" })),
    .sample 1 (.multi .write [.single (.remove { path := ascii "/zookeeper" }),
      .single (.remove { path := ascii "/" }), .single (.check { path := ascii "/" })])]

theorem root_persists_rolledBackRootRun :
    ∃ store after answer, ReachableBy (next .sample) (keepsRoot .sample) sample store ∧
      rootPath ∈ store.dataTree ∧
      store.processRequest .sample (.sample 1 (.single (.create { path := ascii "/x" }))) =
        .returned (after, [answer]) ∧
      answer.response.error ≠ .znonode := by
  simp only [exists_and_left]
  refine exists_reached_of (fun store => (store.processRequest .sample
      (.sample 1 (.single (.create { path := ascii "/x" })))).errors = some [.zok])
    rolledBackRootRun (by decide) ?_
  intro store reached errors
  rcases root_persists started_sample reached with ⟨present, neverZnonode⟩
  refine ⟨present, ?_⟩
  cases processed : store.processRequest .sample
    (.sample 1 (.single (.create { path := ascii "/x" }))) with
  | crashed | blocked | thrown => simp [processed, Result.errors] at errors
  | returned value =>
    rcases value with ⟨after, answers⟩
    simp only [processed, Result.errors, Option.some.injEq, map_eq_singleton_iff] at errors
    rcases errors with ⟨answer, rfl, _⟩
    exact ⟨after, answer, rfl, neverZnonode _ _ (ascii "x") after [answer] (by decide) rfl rfl
      processed answer (mem_singleton.mpr rfl)⟩

end KeeperStore

end RaftKeeper
