import Mathlib.Algebra.GroupWithZero.Nat
import RaftKeeper.Store.Law

/-!
# The child version

Create adds one to both counters of a node's children; Remove and the end of a session take one from
`numChildren` only. The cversion in a response is twice the first less the second: the children
created plus those deleted. The undo of a Remove of the root adds one to the `numChildren` of the
root itself, so the reported number falls.
-/

namespace RaftKeeper

open Change Finmap Finset KeeperNode

def createdChildren (history : List Stamped) (path : Bytes) : ℕ :=
  ((sinceCreation path history).map (·.change.childrenCreated path)).sum

def deletedChildren (history : List Stamped) (path : Bytes) : ℕ :=
  ((sinceCreation path history).map (·.change.childrenDeleted path)).sum

theorem createdChildren_cons (event : Stamped) (history : List Stamped) (path : Bytes) :
    createdChildren (event :: history) path = if event.change.creates path then 0
      else event.change.childrenCreated path + createdChildren history path := by
  rw [createdChildren, sinceCreation_cons]
  split
  · rfl
  · rw [List.map_cons, List.sum_cons]
    rfl

theorem deletedChildren_cons (event : Stamped) (history : List Stamped) (path : Bytes) :
    deletedChildren (event :: history) path = if event.change.creates path then 0
      else event.change.childrenDeleted path + deletedChildren history path := by
  rw [deletedChildren, sinceCreation_cons]
  split
  · rfl
  · rw [List.map_cons, List.sum_cons]
    rfl

def childCounters (stat : Stat) : Int32 × Int32 := (stat.cversion, stat.numChildren)

def expectedCounters (history : List Stamped) (path : Bytes) : Int32 × Int32 :=
  (Int32.ofNat (createdChildren history path),
    Int32.ofNat (createdChildren history path) - Int32.ofNat (deletedChildren history path))

variable {path : Bytes} {history : List Stamped} {zxid : Int64} {change : Change}

theorem expectedCounters_cons (isOther : change.creates path = false) :
    expectedCounters (⟨zxid, change⟩ :: history) path =
      ((expectedCounters history path).1 + Int32.ofNat (change.childrenCreated path),
        (expectedCounters history path).2 + Int32.ofNat (change.childrenCreated path) -
          Int32.ofNat (change.childrenDeleted path)) := by
  rw [expectedCounters, createdChildren_cons, deletedChildren_cons, isOther]
  simp only [Bool.false_eq_true, if_false, Int32.ofNat_add, expectedCounters, Prod.mk.injEq]
  constructor <;> grind

theorem childCounters_law : Law childCounters expectedCounters where
  created := by
    simp [expectedCounters, createdChildren_cons, deletedChildren_cons, creates,
      childCounters, CreateRequest.node]
  gained parentNe counts := by
    rw [expectedCounters_cons (creates_of_ne parentNe), ← counts]
    simp [childCounters, gainChild, childrenCreated, childrenDeleted]
  createdElsewhere isOther notParent := by
    rw [expectedCounters_cons (creates_of_ne isOther)]
    simp [childrenCreated, childrenDeleted, notParent.symm]
  lost counts := by
    rw [expectedCounters_cons rfl, ← counts]
    simp [childCounters, loseChild, childrenCreated, childrenDeleted]
  removedElsewhere notParent := by
    rw [expectedCounters_cons rfl]
    simp [childrenCreated, childrenDeleted, notParent.symm]
  written counts := by
    rw [expectedCounters_cons rfl, ← counts]
    simp [childCounters, setData, childrenCreated, childrenDeleted]
  writtenElsewhere isOther := by
    rw [expectedCounters_cons rfl]
    simp [childrenCreated, childrenDeleted]
  expired remains counts := by
    rw [expectedCounters_cons rfl, ← counts]
    simp [childCounters, loseExpired, childrenCreated, childrenDeleted]
  replaced _ := rfl

theorem expectedCounters_nil (path : Bytes) : expectedCounters [] path = (0, 0) := by
  simp [expectedCounters, createdChildren, deletedChildren, sinceCreation]

theorem childCounters_undoable : Undoable childCounters where
  ungained parent later zxid name same := by
    simp only [childCounters, gainChild, ungainChild, Prod.mk.injEq] at same ⊢
    rw [same.1, same.2, Int32.add_sub_cancel, Int32.add_sub_cancel]
    exact ⟨rfl, rfl⟩
  unlost parent later zxid name same := by
    simp only [childCounters, loseChild, unloseChild, Prod.mk.injEq] at same ⊢
    rw [same.1, same.2, Int32.sub_add_cancel]
    exact ⟨rfl, rfl⟩

theorem cversion_statForResponse {node : KeeperNode}
    (counts : childCounters node.stat = expectedCounters history path) :
    node.statForResponse.cversion =
      Int32.ofNat (createdChildren history path + deletedChildren history path) := by
  rw [childCounters, expectedCounters, Prod.mk.injEq] at counts
  rw [statForResponse, counts.1, counts.2, Int32.ofNat_add]
  grind

def childPaths (tree : DataTree) (parent : Bytes) : Finset Bytes :=
  tree.keys.filter fun path => getParentPath path = parent ∧ path ≠ parent

variable {tree : DataTree}

theorem mem_childPaths {parent : Bytes} :
    path ∈ childPaths tree parent ↔ path ∈ tree ∧ getParentPath path = parent ∧ path ≠ parent := by
  rw [childPaths, mem_filter, mem_keys]

theorem childPaths_congr {later : DataTree} (same : ∀ path, path ∈ later ↔ path ∈ tree)
    (parent : Bytes) : childPaths later parent = childPaths tree parent := by
  ext path
  rw [mem_childPaths, mem_childPaths, same]

/-- The children that a node was given at the start, if it has been there since. -/
def initialChildren (start : DataTree) (history : List Stamped) (path : Bytes) : ℕ :=
  if history.any (·.change.creates path) then 0 else (childPaths start path).card

variable {start : DataTree}

theorem initialChildren_cons (isOther : change.creates path = false) :
    initialChildren start (⟨zxid, change⟩ :: history) path =
      initialChildren start history path := by
  rw [initialChildren, initialChildren, List.any_cons, isOther, Bool.false_or]

/-- Below every node are the children it was given and those created, less those deleted. -/
def Balanced (start : DataTree) (history : List Stamped) (tree : DataTree) : Prop :=
  ∀ path, path ∈ tree → createdChildren history path + initialChildren start history path =
    deletedChildren history path + (childPaths tree path).card

section

variable {start tree later : DataTree} {history : List Stamped} {zxid session time : Int64}
  {before after : StoreState}

theorem Balanced.elsewhere (balanced : Balanced start history tree) {change : Change}
    (isMember : path ∈ tree) (isOther : change.creates path = false)
    (noneCreated : change.childrenCreated path = 0)
    (noneDeleted : change.childrenDeleted path = 0)
    (same : childPaths later path = childPaths tree path) :
    createdChildren (⟨zxid, change⟩ :: history) path +
        initialChildren start (⟨zxid, change⟩ :: history) path =
      deletedChildren (⟨zxid, change⟩ :: history) path + (childPaths later path).card := by
  rw [createdChildren_cons, deletedChildren_cons, initialChildren_cons isOther, isOther,
    noneCreated, noneDeleted, same]
  simpa using balanced path isMember

theorem Balanced.of_same (balanced : Balanced start history tree)
    (same : ∀ path, path ∈ later ↔ path ∈ tree) : Balanced start history later := by
  intro path isMember
  rw [childPaths_congr same]
  exact balanced path ((same path).mp isMember)

theorem Balanced.create (balanced : Balanced start history tree) (attached : Attached tree)
    {path : Bytes} (request : CreateRequest) (absent : path ∉ tree) (named : getBaseName path ≠ [])
    (above : getParentPath path ∈ tree)
    (grows : ∀ other, other ∈ later ↔ other = path ∨ other ∈ tree) :
    Balanced start (⟨zxid, .created request path⟩ :: history) later := by
  intro other isMember
  by_cases isOwn : other = path
  · subst isOwn
    -- nothing was below a path that was not there
    have leaf : childPaths later other = ∅ := by
      rw [eq_empty_iff_forall_notMem]
      intro child isChild
      rcases mem_childPaths.mp isChild with ⟨isPresent, isParent, childNe⟩
      rcases (grows child).mp isPresent with isSame | wasPresent
      · exact childNe isSame
      · rcases mem_iff.mp wasPresent with ⟨node, found⟩
        have notRoot : getParentPath child ≠ rootPath := by
          rw [isParent]
          exact ne_rootPath_of_getBaseName named
        rcases attached.listed found notRoot with ⟨parent, parentFound, _⟩
        rw [isParent] at parentFound
        exact absent (mem_of_lookup_eq_some parentFound)
    simp [createdChildren_cons, deletedChildren_cons, initialChildren, creates, leaf]
  · have wasMember := ((grows other).mp isMember).resolve_left isOwn
    have isOther : (created request path).creates other = false :=
      creates_of_ne isOwn
    by_cases isParent : getParentPath path = other
    · have gained : childPaths later other = insert path (childPaths tree other) := by
        ext child
        rw [Finset.mem_insert, mem_childPaths, mem_childPaths, grows]
        constructor
        · rintro ⟨isSame | isPresent, rest⟩
          · exact .inl isSame
          · exact .inr ⟨isPresent, rest⟩
        · rintro (rfl | ⟨isPresent, rest⟩)
          · exact ⟨.inl rfl, isParent, Ne.symm isOwn⟩
          · exact ⟨.inr isPresent, rest⟩
      have isNew : path ∉ childPaths tree other := fun isChild =>
        absent (mem_childPaths.mp isChild).1
      rw [createdChildren_cons, deletedChildren_cons, initialChildren_cons isOther, isOther, gained,
        card_insert_of_notMem isNew]
      have counts := balanced other wasMember
      simp only [childrenCreated, childrenDeleted, isParent, if_true, Bool.false_eq_true, if_false]
      omega
    · refine balanced.elsewhere wasMember isOther (if_neg isParent) rfl ?_
      ext child
      rw [mem_childPaths, mem_childPaths, grows]
      constructor
      · rintro ⟨rfl | isPresent, isBelow, rest⟩
        · exact absurd isBelow isParent
        · exact ⟨isPresent, isBelow, rest⟩
      · rintro ⟨isPresent, rest⟩
        exact ⟨.inr isPresent, rest⟩

theorem Balanced.delete (balanced : Balanced start history tree) {paths : Finset Bytes}
    {change : Change} (present : ∀ path ∈ paths, path ∈ tree)
    (shrinks : ∀ other, other ∈ later ↔ other ∉ paths ∧ other ∈ tree)
    (createsNone : ∀ other, change.creates other = false ∧ change.childrenCreated other = 0)
    (deletes : ∀ other,
      change.childrenDeleted other = (paths.filter (getParentPath · = other)).card) :
    Balanced start (⟨zxid, change⟩ :: history) later := by
  intro other isMember
  rcases (shrinks other).mp isMember with ⟨remains, wasMember⟩
  have lost : childPaths later other =
      childPaths tree other \ paths.filter (getParentPath · = other) := by
    ext child
    rw [mem_sdiff, mem_childPaths, mem_childPaths, shrinks, mem_filter]
    constructor
    · rintro ⟨⟨isLeft, isPresent⟩, rest⟩
      exact ⟨⟨isPresent, rest⟩, fun isLost => isLeft isLost.1⟩
    · rintro ⟨⟨isPresent, isBelow, childNe⟩, isLeft⟩
      exact ⟨⟨fun isLost => isLeft ⟨isLost, isBelow⟩, isPresent⟩, isBelow, childNe⟩
  have wereChildren : paths.filter (getParentPath · = other) ⊆ childPaths tree other := by
    intro child isLost
    rcases mem_filter.mp isLost with ⟨isDeleted, isBelow⟩
    exact mem_childPaths.mpr ⟨present child isDeleted, isBelow, fun isOwn =>
      remains (isOwn ▸ isDeleted)⟩
  have counts := balanced other wasMember
  have fewer := card_le_card wereChildren
  rw [createdChildren_cons, deletedChildren_cons, initialChildren_cons (createsNone other).1,
    (createsNone other).1, (createsNone other).2, deletes, lost,
    card_sdiff_of_subset wereChildren]
  simp only [Bool.false_eq_true, if_false]
  omega

theorem Operation.balanced {request : SingleRequest} {change : Option Change}
    (operation : Operation zxid session time before request after change)
    (attached : Attached before.dataTree) (balanced : Balanced start history before.dataTree) :
    Balanced start (record zxid change.toList history) after.dataTree := by
  have replaces {path : Bytes} {old new : KeeperNode}
      (found : before.dataTree.lookup path = some old) (other : Bytes) :
      other ∈ before.dataTree.insert path new ↔ other ∈ before.dataTree := by
    rw [Finmap.mem_insert]
    constructor
    · rintro (rfl | isPresent)
      · exact mem_of_lookup_eq_some found
      · exact isPresent
    · exact .inr
  cases operation with
  | nothing => exact balanced
  | setACL _ _ _ _ _ found => exact balanced.of_same (replaces found)
  | @create own parent _ nodeAcls _ auths sameAuths parentFound persistent absent named =>
    have isParent := CreateRequest.getParentPath_pathCreated parent
      (attached.slash_mem parentFound)
    refine balanced.create attached own (lookup_eq_none.mp absent) named ?_ ?_
    · rw [isParent]
      exact mem_of_lookup_eq_some parentFound
    · intro other
      rw [StoreState.addCreated, Finmap.mem_insert, Finmap.mem_modify]
  | @remove own node parent _ found _ childless parentFound =>
    refine @Balanced.delete start before.dataTree _ history zxid balanced {own.path} _ ?_ ?_
      (fun _ => ⟨rfl, rfl⟩) ?_
    · intro path isRemoved
      rw [mem_singleton.mp isRemoved]
      exact mem_of_lookup_eq_some found
    · intro other
      rw [StoreState.dropRemoved, Finmap.mem_erase, Finmap.mem_modify, Finset.mem_singleton]
    · intro other
      rw [filter_singleton, childrenDeleted]
      split <;> rfl
  | set _ found =>
    intro path isMember
    exact balanced.elsewhere ((replaces found path).mp isMember) rfl rfl rfl
      (childPaths_congr (replaces found) path)

theorem SameView.mem_iff {V : Type} {view : Stat → V} (same : SameView view tree later)
    (path : Bytes) : path ∈ later ↔ path ∈ tree := by
  have isSome := congrArg Option.isSome (same path)
  rw [Option.isSome_map, Option.isSome_map] at isSome
  rw [← lookup_isSome, ← lookup_isSome, isSome]

theorem balanced_invariant (start : DataTree) :
    HistoryInvariant (fun _ => True) (Balanced start) where
  performed operation sound balanced := operation.balanced sound.attached balanced
  rolledBack chain _ runs sound balanced := by
    have undoable : Undoable fun _ : Stat => () := ⟨fun _ _ _ _ _ => rfl, fun _ _ _ _ _ => rfl⟩
    exact balanced.of_same (chain.sameView undoable (.inl fun _ _ => rfl) sound runs).mem_iff
  closed sound balanced := by
    refine balanced.delete ?_ ?_ (fun _ => ⟨rfl, rfl⟩) fun _ => rfl
    · intro path isListed
      rcases sound.indexed.owned isListed with ⟨node, found, _⟩
      exact mem_of_lookup_eq_some found
    · intro other
      rw [← lookup_isSome, ← lookup_isSome, lookup_dropEphemerals]
      split
      next isExpired => simp [isExpired]
      next remains => simp [remains]

end

variable {newer : List Stamped}

theorem sinceCreation_append (history : List Stamped)
    (lasts : ∀ event ∈ newer, event.change.creates path = false) :
    sinceCreation path (newer ++ history) = newer ++ sinceCreation path history := by
  rw [sinceCreation, List.takeWhile_append_of_pos]
  · rfl
  · intro event isMember
    rw [lasts event isMember]
    rfl

theorem createdChildren_le_append (history : List Stamped)
    (lasts : ∀ event ∈ newer, event.change.creates path = false) :
    createdChildren history path ≤ createdChildren (newer ++ history) path ∧
      deletedChildren history path ≤ deletedChildren (newer ++ history) path := by
  rw [createdChildren, deletedChildren, createdChildren, deletedChildren,
    sinceCreation_append history lasts, List.map_append, List.map_append, List.sum_append,
    List.sum_append]
  exact ⟨Nat.le_add_left _ _, Nat.le_add_left _ _⟩

theorem initialChildren_append (history : List Stamped)
    (lasts : ∀ event ∈ newer, event.change.creates path = false) :
    initialChildren start (newer ++ history) path = initialChildren start history path := by
  have createsNone : newer.any (·.change.creates path) = false := by
    rw [List.any_eq_false]
    intro event isMember
    rw [lasts event isMember]
    exact Bool.false_ne_true
  rw [initialChildren, List.any_append, createsNone, Bool.false_or]
  rfl

namespace Recorded

variable {platform : Platform} {start : KeeperStore} {recorded later : Recorded}

/-- A committed request that takes back no Remove of the root. -/
def countsChildren (platform : Platform) (recorded : Recorded) (call : Call) : Prop :=
  call.Served ∧ recorded.store.restoresRoot platform call

instance (recorded : Recorded) (call : Call) : Decidable (recorded.countsChildren platform call) :=
  inferInstanceAs (Decidable (_ ∧ _))

theorem reachable_childCounters (started : start.Started platform)
    (reached : ReachableBy (next platform) (countsChildren platform) { store := start } recorded) :
    Lawful childCounters expectedCounters recorded.history recorded.store.dataTree :=
  reachable_lawful childCounters_law childCounters_undoable
    (fun path _ => (expectedCounters_nil path).symm)
    (fun _ _ meets => meets.1) (.inr fun _ _ meets => meets.2) started reached

/-- The number of changes that the cversion has to count stays within its type. -/
def CountsFit (start : DataTree) (history : List Stamped) (path : Bytes) : Prop :=
  2 * createdChildren history path + initialChildren start history path < 2 ^ 31

theorem toInt_cversion (started : start.Started platform)
    (reached : ReachableBy (next platform) (countsChildren platform) { store := start } recorded)
    {node : KeeperNode} (found : recorded.store.dataTree.lookup path = some node)
    (fits : CountsFit start.dataTree recorded.history path) :
    node.statForResponse.cversion.toInt =
      createdChildren recorded.history path + deletedChildren recorded.history path := by
  have counts := reachable_childCounters started reached path node found
  have balance := reachable_invariant (balanced_invariant start.dataTree)
    (fun _ _ meets => ⟨meets.1, trivial⟩) started (fun _ _ => rfl) reached path
    (mem_of_lookup_eq_some found)
  rw [CountsFit] at fits
  rw [cversion_statForResponse counts, Int32.toInt_ofNat_of_lt (by omega)]
  exact Int.natCast_add _ _

/--
The reported cversion is the number of children created and deleted since the node was
created, and while the node is there it does not fall.
-/
theorem reported_cversion (started : start.Started platform)
    (reached : ReachableBy (next platform) (countsChildren platform) { store := start } recorded) :
    (∀ path node, recorded.store.dataTree.lookup path = some node →
      CountsFit start.dataTree recorded.history path →
      node.statForResponse.cversion.toInt =
        createdChildren recorded.history path + deletedChildren recorded.history path) ∧
    ∀ later newer path node new, ReachableBy (next platform)
      (countsChildren platform) recorded later → later.history = newer ++ recorded.history →
      (∀ event ∈ newer, event.change.creates path = false) →
      recorded.store.dataTree.lookup path = some node →
      later.store.dataTree.lookup path = some new →
      CountsFit start.dataTree later.history path →
      node.statForResponse.cversion ≤ new.statForResponse.cversion := by
  refine ⟨fun path node found fits => toInt_cversion started reached found fits, ?_⟩
  intro later newer path node new reachedLater extends_ lasts found foundLater fitsLater
  have growth := createdChildren_le_append recorded.history lasts
  rw [← extends_] at growth
  have fits : CountsFit start.dataTree recorded.history path := by
    rw [CountsFit, extends_, initialChildren_append recorded.history lasts, ← extends_] at fitsLater
    rw [CountsFit]
    omega
  rw [Int32.le_iff_toInt_le, toInt_cversion started reached found fits,
    toInt_cversion started (reached.trans reachedLater) foundLater fitsLater]
  omega

def childRun : List Call :=
  [.sampleSession, .sample 1 (.single (.create { path := ascii "/x" })),
    .sample 1 (.single (.create { path := ascii "/x/a" })),
    .sample 1 (.single (.create { path := ascii "/x/b", isEphemeral := true })),
    .sample 1 (.single (.remove { path := ascii "/x/a" })),
    .sample 1 (.multi .write [.single (.create { path := ascii "/x/c" }),
      .single (.remove { path := ascii "/x/b" }), .single (.check { path := ascii "/y" })]),
    .sample 1 (.single .close)]

theorem reported_cversion_childRun :
    ∃ recorded, ReachableBy (next .sample) (countsChildren .sample) { store := .sample } recorded ∧
      ∃ node, recorded.store.dataTree.lookup (ascii "/x") = some node ∧
        createdChildren recorded.history (ascii "/x") = 2 ∧
        deletedChildren recorded.history (ascii "/x") = 2 ∧
        node.statForResponse.cversion.toInt = 4 := by
  refine exists_reached_of (fun recorded => ∃ node,
      recorded.store.dataTree.lookup (ascii "/x") = some node ∧
      createdChildren recorded.history (ascii "/x") = 2 ∧
      deletedChildren recorded.history (ascii "/x") = 2 ∧
      initialChildren KeeperStore.sample.dataTree recorded.history (ascii "/x") = 0)
    childRun (by decide +kernel) ?_
  rintro recorded reached ⟨node, found, created, deleted, initial⟩
  refine ⟨node, found, created, deleted, ?_⟩
  have fits : CountsFit KeeperStore.sample.dataTree recorded.history (ascii "/x") := by
    rw [CountsFit, created, initial]
    decide
  rw [(reported_cversion KeeperStore.started_sample reached).1 _ node found fits, created, deleted]
  rfl

/-- `numChildren` is the number of the node's children in the tree, without those that it was given
at the start. -/
theorem numChildren_exact (started : start.Started platform)
    (reached : ReachableBy (next platform) (countsChildren platform) { store := start } recorded)
    {node : KeeperNode} (found : recorded.store.dataTree.lookup path = some node) :
    node.stat.numChildren + Int32.ofNat (initialChildren start.dataTree recorded.history path) =
      Int32.ofNat (childPaths recorded.store.dataTree path).card := by
  have counts := reachable_childCounters started reached path node found
  have balance := reachable_invariant (balanced_invariant start.dataTree)
    (fun _ _ meets => ⟨meets.1, trivial⟩) started (fun _ _ => rfl) reached path
    (mem_of_lookup_eq_some found)
  have sum := congrArg Int32.ofNat balance
  rw [Int32.ofNat_add, Int32.ofNat_add] at sum
  simp only [childCounters, expectedCounters, Prod.mk.injEq] at counts
  rw [counts.2]
  grind

theorem numChildren_exact_childRun :
    ∃ recorded, ReachableBy (next .sample) (countsChildren .sample) { store := .sample } recorded ∧
      ∃ node, recorded.store.dataTree.lookup rootPath = some node ∧ node.stat.numChildren = 1 ∧
        node.stat.numChildren + Int32.ofNat
            (initialChildren KeeperStore.sample.dataTree recorded.history rootPath) =
          Int32.ofNat (childPaths recorded.store.dataTree rootPath).card := by
  refine exists_reached_of (fun recorded => ∃ node,
    recorded.store.dataTree.lookup rootPath = some node ∧ node.stat.numChildren = 1) childRun
    (by decide +kernel) ?_
  rintro recorded reached ⟨node, found, one⟩
  exact ⟨node, found, one, numChildren_exact KeeperStore.started_sample reached found⟩

def emptyTreeRun : List Call :=
  [.sampleSession, .sample 1 (.single (.remove { path := ascii "/zookeeper/config" })),
    .sample 1 (.single (.remove { path := ascii "/zookeeper" }))]

def failedRootRun : List Call :=
  [.sample 1 (.multi .write [.single (.remove { path := ascii "/" }),
    .single (.check { path := ascii "/y" })])]

/-- Taking a Remove of the root back makes its cversion fall, although a child was deleted. -/
theorem failedRoot_lowers_cversion :
    ∃ recorded later, ReachableBy (next .sample) (fun _ call => call.Served) { store := .sample }
        recorded ∧
      ReachableBy (next .sample) (fun _ call => call.Served) recorded later ∧
      deletedChildren later.history rootPath = 1 ∧
      (recorded.store.dataTree.lookup rootPath).map (·.statForResponse.cversion) = some 1 ∧
      (later.store.dataTree.lookup rootPath).map (·.statForResponse.cversion) = some 0 := by
  simp only [exists_and_left]
  refine exists_reached_of (fun recorded =>
      (recorded.store.dataTree.lookup rootPath).map (·.statForResponse.cversion) = some 1 ∧
      runMeets (next .sample) (fun _ call => call.Served) recorded failedRootRun ∧
      ∃ later, runFrom (next .sample) recorded failedRootRun = some later ∧
        deletedChildren later.history rootPath = 1 ∧
        (later.store.dataTree.lookup rootPath).map (·.statForResponse.cversion) = some 0)
    emptyTreeRun (by decide +kernel) ?_
  rintro recorded reached ⟨before, runs⟩
  exact exists_reached_of _ failedRootRun runs fun _ tested => ⟨tested.1, before, tested.2⟩

end Recorded

end RaftKeeper
