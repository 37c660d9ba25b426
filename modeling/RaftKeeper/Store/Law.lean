import RaftKeeper.Store.History

/-!
# Laws of the history

A law says what a view of the stat of a node is according to the history, such as the number of
times it was written. It is enough to know what each kind of change does to the view of the node and
of its parent, and that the undo actions of Create and Remove take the latter back.
-/

namespace RaftKeeper

open Finmap Finset KeeperNode Option

/-- A change with the zxid of its request. -/
structure Stamped where
  zxid : Int64
  change : Change

/-- The history after a request has made these changes; the latest event comes first. -/
def record (zxid : Int64) (changes : List Change) (history : List Stamped) : List Stamped :=
  (changes.map (Stamped.mk zxid)).reverse ++ history

@[simp]
theorem record_nil (zxid : Int64) (history : List Stamped) : record zxid [] history = history := rfl

theorem record_append (zxid : Int64) (first second : List Change) (history : List Stamped) :
    record zxid (first ++ second) history = record zxid second (record zxid first history) := by
  simp [record]

/-- What has happened since a node was created at this path, or since the start. -/
def sinceCreation (path : Bytes) (history : List Stamped) : List Stamped :=
  history.takeWhile fun event => !event.change.creates path

theorem sinceCreation_cons (path : Bytes) (event : Stamped) (history : List Stamped) :
    sinceCreation path (event :: history) =
      if event.change.creates path then [] else event :: sinceCreation path history := by
  rw [sinceCreation, List.takeWhile_cons]
  cases event.change.creates path <;> rfl

def KeeperNode.loseExpired (expired : Finset Bytes) (node : KeeperNode) : KeeperNode :=
  { node with
    children := node.children \ expired.image getBaseName
    stat := { node.stat with numChildren := node.stat.numChildren - Int32.ofNat expired.card } }

theorem KeeperNode.loseExpired_empty (node : KeeperNode) : node.loseExpired ∅ = node := by
  simp [loseExpired]

theorem KeeperNode.loseExpired_insert {path : Bytes} {expired : Finset Bytes}
    (isNew : path ∉ expired) (node : KeeperNode) :
    node.loseExpired (insert path expired) =
      loseExpired expired
        { node with
          children := node.children.erase (getBaseName path)
          stat := { node.stat with numChildren := node.stat.numChildren - 1 } } := by
  have sameCount : node.stat.numChildren - Int32.ofNat (expired.card + 1) =
      node.stat.numChildren - 1 - Int32.ofNat expired.card := by
    rw [Int32.ofNat_add, Int32.sub_sub, Int32.add_comm]
    rfl
  rw [loseExpired, loseExpired, card_insert_of_notMem isNew, sameCount,
    image_insert, sdiff_insert, erase_sdiff_comm]

theorem lookup_dropEphemerals (tree : DataTree) (paths : Finset Bytes) (other : Bytes) :
    (Replicated.dropEphemerals tree paths).lookup other = if other ∈ paths then none
      else (tree.lookup other).map
        (loseExpired (paths.filter (getParentPath · = other))) := by
  induction paths using Finset.induction_on generalizing tree with
  | empty =>
    have same : loseExpired ∅ = id := funext loseExpired_empty
    simp [Replicated.dropEphemerals, same]
  | insert path paths isNew ih =>
    have unfolds : Replicated.dropEphemerals tree (insert path paths) =
        Replicated.dropEphemerals (dropEphemeral tree path) paths := by
      rw [Replicated.dropEphemerals, insert_val_of_notMem isNew, Multiset.foldl_cons]
      rfl
    rw [unfolds, ih, lookup_dropEphemeral]
    by_cases isExpired : other ∈ paths
    · rw [if_pos isExpired, if_pos (mem_insert_of_mem isExpired)]
    rw [if_neg isExpired]
    by_cases isOwn : other = path
    · rw [if_pos isOwn, if_pos (Finset.mem_insert.mpr (.inl isOwn))]
      rfl
    have remains : other ∉ insert path paths := by
      rw [Finset.mem_insert, not_or]
      exact ⟨isOwn, isExpired⟩
    rw [if_neg isOwn, if_neg remains, filter_insert]
    by_cases isParent : getParentPath path = other
    · rw [if_pos isParent, if_pos isParent.symm, Option.map_map]
      congr 1
      funext node
      exact (loseExpired_insert (by simp [isNew]) node).symm
    · rw [if_neg isParent, if_neg (Ne.symm isParent)]

section

variable {zxid session time : Int64} {before after : StoreState} {request : SingleRequest}
  {change : Option Change}

theorem Operation.ownershipSound
    (operation : Operation zxid session time before request after change)
    (sound : OwnershipSound before) : OwnershipSound after := by
  rcases operation.effect_cases with
    ⟨undo, effect⟩ | ⟨auths, rfl⟩ | ⟨own, node, nodeAcls, auths, _, _, found, rfl⟩
  · exact effect.ownershipSound sound
  · exact ⟨sound.attached, sound.indexed⟩
  · exact ⟨sound.attached.replace found (Subset.refl _),
      sound.indexed.replace found ⟨rfl, rfl, fun _ childless => childless⟩⟩

/-- What survives the operations of a request, taking them back, and the end of a session. -/
structure HistoryInvariant (keeps : Trace → Prop) (property : List Stamped → DataTree → Prop) :
    Prop where
  performed : ∀ {history zxid session time before request after change},
    Operation zxid session time before request after change → OwnershipSound before →
      property history before.dataTree →
        property (record zxid (toList change) history) after.dataTree
  rolledBack : ∀ {history zxid session time before trace executed after},
    Executed zxid session time before trace executed → keeps trace →
      Undo.runAll trace.undos executed = some after → OwnershipSound before →
        property history before.dataTree → property history after.dataTree
  closed : ∀ {history zxid session before}, OwnershipSound before →
    property history before.dataTree →
      property (⟨zxid, .expired (ephemeralsOf before.ephemerals session)⟩ :: history)
        (Replicated.dropEphemerals before.dataTree (ephemeralsOf before.ephemerals session))

theorem HistoryInvariant.treeStep {keeps : Trace → Prop} {property : List Stamped → DataTree → Prop}
    (invariant : HistoryInvariant keeps property) {history : List Stamped} {changes : List Change}
    {undone : Trace} (step : TreeStep zxid session time before changes undone after)
    (kept : keeps undone) (sound : OwnershipSound before)
    (holds : property history before.dataTree) :
    property (record zxid changes history) after.dataTree := by
  cases step with
  | performed performed =>
    clear kept
    induction performed generalizing history with
    | nil => exact holds
    | cons operation _ ih =>
      rw [record_append]
      exact ih (operation.ownershipSound sound) (invariant.performed operation sound holds)
  | rolledBack chain runs => exact invariant.rolledBack chain kept runs sound holds
  | closed => exact invariant.closed sound holds

end

section

variable {V : Type} {view : Stat → V} {expected : List Stamped → Bytes → V}

def Lawful (view : Stat → V) (expected : List Stamped → Bytes → V) (history : List Stamped)
    (tree : DataTree) : Prop :=
  ∀ path node, tree.lookup path = some node → view node.stat = expected history path

/-- What the history says changes as the operations change the view. -/
structure Law (view : Stat → V) (expected : List Stamped → Bytes → V) : Prop where
  created : ∀ {history zxid session time request path aclId},
    view (CreateRequest.node request zxid session time aclId).stat =
      expected (⟨zxid, .created request path⟩ :: history) path
  gained : ∀ {history zxid request path name node}, getParentPath path ≠ path →
    view (stat node) = expected history (getParentPath path) →
    view (node.gainChild zxid name).stat =
      expected (⟨zxid, .created request path⟩ :: history) (getParentPath path)
  createdElsewhere : ∀ {history zxid request path other}, other ≠ path →
    other ≠ getParentPath path →
    expected (⟨zxid, .created request path⟩ :: history) other = expected history other
  lost : ∀ {history zxid request name node},
    view (stat node) = expected history (getParentPath (RemoveRequest.path request)) →
    view (node.loseChild zxid name).stat =
      expected (⟨zxid, .removed request⟩ :: history) (getParentPath request.path)
  removedElsewhere : ∀ {history zxid request other},
    other ≠ getParentPath (RemoveRequest.path request) →
    expected (⟨zxid, .removed request⟩ :: history) other = expected history other
  written : ∀ {history zxid time request node},
    view (stat node) = expected history (SetRequest.path request) →
    view (node.setData zxid time request.data).stat =
      expected (⟨zxid, .written request⟩ :: history) request.path
  writtenElsewhere : ∀ {history zxid request other}, other ≠ SetRequest.path request →
    expected (⟨zxid, .written request⟩ :: history) other = expected history other
  expired : ∀ {history zxid paths path node}, path ∉ paths →
    view (stat node) = expected history path →
    view (node.loseExpired (paths.filter (getParentPath · = path))).stat =
      expected (⟨zxid, .expired paths⟩ :: history) path
  replaced : ∀ stat : Stat, view { stat with aversion := stat.aversion + 1 } = view stat

/-- The undo actions of Create and Remove take the view of the parent back. -/
structure Undoable (view : Stat → V) : Prop where
  ungained : ∀ (parent later : KeeperNode) zxid name,
    view later.stat = view (parent.gainChild zxid name).stat →
    view (later.ungainChild parent.stat.pzxid name).stat = view parent.stat
  unlost : ∀ (parent later : KeeperNode) zxid name,
    view later.stat = view (parent.loseChild zxid name).stat →
    view (later.unloseChild parent.stat.pzxid name).stat = view parent.stat

/-- Nothing is left of the Remove of the root that was taken back. -/
def RootUndoable (view : Stat → V) : Prop :=
  ∀ (root : KeeperNode) name, view (root.unloseChild root.stat.pzxid name).stat = view root.stat

variable {zxid session time : Int64} {before after later earlier : StoreState}
  {history : List Stamped} {request : SingleRequest} {change : Option Change}

theorem Operation.lawful (operation : Operation zxid session time before request after change)
    (law : Law view expected) (attached : Attached before.dataTree)
    (holds : Lawful view expected history before.dataTree) :
    Lawful view expected (record zxid change.toList history) after.dataTree := by
  intro path node found
  cases operation with
  | nothing => exact holds path node found
  | @setACL own old _ nodeAcls _ auths sameAuths foundOld =>
    rw [lookup_insert_ite] at found
    split at found
    next isOwn =>
      cases found
      rw [isOwn]
      exact (law.replaced old.stat).trans (holds own.path old foundOld)
    next => exact holds path node found
  | @create own parent _ nodeAcls _ auths sameAuths parentFound persistent absent named =>
    have isParent := CreateRequest.getParentPath_pathCreated parent
      (attached.slash_mem parentFound)
    have parentNe : getParentPath (own.pathCreated parent) ≠ own.pathCreated parent := by
      intro isOwn
      rw [isParent] at isOwn
      rw [← isOwn, parentFound] at absent
      cases absent
    simp only [StoreState.addCreated] at found
    rw [← isParent] at found parentFound
    rw [lookup_insert_ite] at found
    split at found
    next isOwn =>
      cases found
      rw [isOwn]
      exact law.created
    next isOther =>
      rw [lookup_modify] at found
      split at found
      next isAbove =>
        rw [parentFound] at found
        cases found
        rw [isAbove]
        exact law.gained parentNe (holds _ parent parentFound)
      next notParent =>
        rw [holds path node found]
        exact (law.createdElsewhere isOther notParent).symm
  | @remove own old parent _ foundOld _ childless parentFound =>
    simp only [StoreState.dropRemoved] at found
    rw [lookup_erase_ite] at found
    have present := (ite_none_left_eq_some.mp found).2
    rw [lookup_modify] at present
    split at present
    next isParent =>
      rw [parentFound] at present
      cases present
      rw [isParent]
      exact law.lost (holds _ parent parentFound)
    next notParent =>
      rw [holds path node present]
      exact (law.removedElsewhere notParent).symm
  | @set own old _ foundOld =>
    rw [lookup_insert_ite] at found
    split at found
    next isOwn =>
      cases found
      rw [isOwn]
      exact law.written (holds own.path old foundOld)
    next isOther =>
      rw [holds path node found]
      exact (law.writtenElsewhere isOther).symm

/-- Two trees have the same nodes, as far as the view goes. -/
def SameView (view : Stat → V) (tree later : DataTree) : Prop :=
  ∀ path, (later.lookup path).map (view ·.stat) = (tree.lookup path).map (view ·.stat)

theorem SameView.refl (view : Stat → V) (tree : DataTree) : SameView view tree tree := fun _ => rfl

variable {tree laterTree : DataTree}

theorem SameView.lawful (same : SameView view tree laterTree)
    (holds : Lawful view expected history tree) : Lawful view expected history laterTree := by
  intro path node found
  have isSame := same path
  rw [found, map_some] at isSame
  rcases map_eq_some_iff.mp isSame.symm with ⟨old, foundOld, sameStat⟩
  rw [← sameStat]
  exact holds path old foundOld

theorem sameView_iff_related :
    SameView view tree laterTree ↔
      Related (fun _ old new => view new.stat = view old.stat) tree laterTree :=
  Related.iff_map_eq.symm

theorem Effect.sameView_undo {undo : Undo} (effect : Effect zxid session time before after undo)
    (undoable : Undoable view) (keeps : undo.removesRoot = true → RootUndoable view)
    (attached : Attached before.dataTree) (same : SameView view after.dataTree later.dataTree) :
    ∃ earlier, undo.run later = some earlier ∧ SameView view before.dataTree earlier.dataTree := by
  simp only [sameView_iff_related] at same ⊢
  exact effect.related_undo (fun _ => rfl) (fun parent new => undoable.ungained parent new zxid)
    (fun parent new => undoable.unlost parent new zxid) keeps attached same

theorem Executed.sameView {trace : Trace}
    (chain : Executed zxid session time before trace later) (undoable : Undoable view)
    (keeps : RootUndoable view ∨ ∀ entry ∈ trace, entry.2.removesRoot = false)
    (sound : OwnershipSound before) (runs : Undo.runAll trace.undos later = some earlier) :
    SameView view before.dataTree earlier.dataTree := by
  have meets : ∀ entry ∈ trace, entry.2.removesRoot = true → RootUndoable view := by
    intro entry isMember removesRoot
    rcases keeps with rootUndoable | keeps
    · exact rootUndoable
    · rw [keeps entry isMember] at removesRoot
      cases removesRoot
  rcases chain.rollback (fun _ undo => undo.removesRoot = true → RootUndoable view)
    (fun effect sound _ => effect.ownershipSound sound)
    (fun effect sound keeps => effect.sameView_undo undoable keeps sound.attached) sound meets
    (.refl view _) with ⟨restored, runsRestored, same⟩
  rw [runs] at runsRestored
  cases runsRestored
  exact same

theorem Law.invariant (law : Law view expected) (undoable : Undoable view) :
    HistoryInvariant
      (fun trace => RootUndoable view ∨ ∀ entry ∈ trace, entry.2.removesRoot = false)
      (Lawful view expected) where
  performed operation sound holds := operation.lawful law sound.attached holds
  rolledBack chain keeps runs sound holds := (chain.sameView undoable keeps sound runs).lawful holds
  closed := by
    intro history zxid session before sound holds path node found
    rw [lookup_dropEphemerals] at found
    rcases ite_none_left_eq_some.mp found with ⟨remains, isLeft⟩
    rcases map_eq_some_iff.mp isLeft with ⟨old, foundOld, rfl⟩
    exact law.expired remains (holds path old foundOld)

end

/-- A store, and the history of its tree. -/
structure Recorded where
  store : KeeperStore
  history : List Stamped := []

namespace Recorded

def next (platform : Platform) (recorded : Recorded) (call : Call) : Option Recorded :=
  (recorded.store.next platform call).map fun after =>
    { store := after
      history := record recorded.store.zxid (recorded.store.changes platform call)
        recorded.history }

variable {platform : Platform} {start : KeeperStore} {before after recorded : Recorded}
  {call : Call}

theorem next_store (moves : before.next platform call = some after) :
    before.store.next platform call = some after.store ∧
      after.history = record before.store.zxid (before.store.changes platform call)
        before.history := by
  rcases map_eq_some_iff.mp moves with ⟨store, movesStore, rfl⟩
  exact ⟨movesStore, rfl⟩

theorem next_treeStep (served : call.Served) (moves : before.next platform call = some after) :
    TreeStep before.store.zxid call.request.sessionId call.request.processTime
      before.store.toStoreState (before.store.changes platform call)
      (before.store.undone platform call) after.store.toStoreState :=
  KeeperStore.next_treeStep served (next_store moves).1

end Recorded

namespace KeeperStore

variable {platform : Platform} {start store : KeeperStore} {call : Call}

/-- A call takes back no Remove of the root. -/
def restoresRoot (platform : Platform) (store : KeeperStore) (call : Call) : Prop :=
  store.rollsBack platform call = true →
    ∀ step ∈ store.steps platform call, step.2.removesRoot step.1 = false

instance : Decidable (store.restoresRoot platform call) :=
  inferInstanceAs (Decidable (_ → _))

theorem restoresRoot.undone (restores : store.restoresRoot platform call) :
    ∀ entry ∈ store.undone platform call, entry.2.removesRoot = false := by
  intro entry isMember
  rw [KeeperStore.undone] at isMember
  split at isMember
  next rolledBack => exact trace_removesRoot (restores rolledBack) entry isMember
  next => cases isMember

theorem Started.stat_eq (started : Started platform start) {path : Bytes} {node : KeeperNode}
    (found : start.dataTree.lookup path = some node) : node.stat = {} := by
  have fresh := @Started.everywhere _ _ started (stat · = {}) rfl
    (fun _ untouched => untouched) fun _ untouched => untouched
  exact fresh path node found

end KeeperStore

namespace Recorded

variable {platform : Platform} {start : KeeperStore} {recorded : Recorded}
  {allowed : Recorded → Call → Prop} {V : Type} {view : Stat → V}
  {expected : List Stamped → Bytes → V}

theorem reachable_invariant {keeps : Trace → Prop} {property : List Stamped → DataTree → Prop}
    (invariant : HistoryInvariant keeps property)
    (allows : ∀ recorded call, allowed recorded call →
      call.Served ∧ keeps (recorded.store.undone platform call))
    (started : start.Started platform) (initially : property [] start.dataTree)
    (reached : ReachableBy (next platform) allowed { store := start } recorded) :
    property recorded.history recorded.store.dataTree := by
  refine (reached.invariant (fun recorded => OwnershipSound recorded.store.toStoreState ∧
    property recorded.history recorded.store.dataTree)
      ⟨started.ownershipSound, initially⟩ ?_).2
  rintro before after call ⟨sound, holds⟩ meets moves
  rcases next_store moves with ⟨movesStore, isHistory⟩
  rcases allows before call meets with ⟨served, kept⟩
  refine ⟨(KeeperStore.next_callEffect movesStore).ownershipSound sound, ?_⟩
  rw [isHistory]
  exact invariant.treeStep (next_treeStep served moves) kept sound holds

theorem reachable_lawful (law : Law view expected) (undoable : Undoable view)
    (initially : ∀ path, path ∈ start.dataTree → view {} = expected [] path)
    (served : ∀ recorded call, allowed recorded call → call.Served)
    (keeps : RootUndoable view ∨
      ∀ recorded call, allowed recorded call → recorded.store.restoresRoot platform call)
    (started : start.Started platform)
    (reached : ReachableBy (next platform) allowed { store := start } recorded) :
    Lawful view expected recorded.history recorded.store.dataTree := by
  refine reachable_invariant (law.invariant undoable) ?_ started ?_ reached
  · intro recorded call meets
    exact ⟨served _ _ meets, keeps.imp_right fun restores => (restores _ _ meets).undone⟩
  · intro path node found
    rw [started.stat_eq found]
    exact initially path (mem_of_lookup_eq_some found)

end Recorded

end RaftKeeper
