import RaftKeeper.Lib.Run
import RaftKeeper.Store.Rollback

/-!
# The tree in every reachable state

`TreeSound` puts the shape of the tree and the index of ephemeral nodes together: both
are needed to close a session. It holds after construction and is kept by every call
that creates no alias, whether the call succeeds, fails, rolls back or throws.
-/

namespace RaftKeeper

open Finmap Option

set_option maxRecDepth 10000

/-- The tree is well formed, and the index of ephemeral nodes fits it. -/
structure TreeSound (state : StoreState) : Prop where
  wellFormed : TreeWellFormed state.dataTree
  indexed : EphemeralsIndexed state.dataTree state.ephemerals

/-- What a rollback restores: the tree, up to the name of a removed root, and the index. -/
structure TreeRestored (before later : StoreState) : Prop where
  dataTree : ∃ change, (change = id ∨ change = KeeperNode.haunt) ∧
    later.dataTree = before.dataTree.modify rootPath change
  ephemerals : ∀ owner, ephemeralsOf later.ephemerals owner = ephemeralsOf before.ephemerals owner

theorem TreeRestored.refl (state : StoreState) : TreeRestored state state :=
  ⟨⟨id, .inl rfl, (modify_id _ _).symm⟩, fun _ => rfl⟩

section

variable {zxid session time : Int64} {before after later : StoreState} {undo : Undo}

theorem Effect.treeSound (effect : Effect zxid session time before after undo)
    (sound : TreeSound before) (noAlias : undo.aliases = false) : TreeSound after :=
  ⟨effect.treeWellFormed sound.wellFormed noAlias, effect.ephemeralsIndexed sound.indexed⟩

theorem Effect.treeRestored (effect : Effect zxid session time before after undo)
    (sound : TreeSound before) (noAlias : undo.aliases = false)
    (restored : TreeRestored after later) :
    ∃ earlier, undo.run later = some earlier ∧ TreeRestored before earlier := by
  rcases restored with ⟨⟨change, either, sameTree⟩, sameEphemerals⟩
  rcases effect.undo_dataTree sound.wellFormed noAlias either with ⟨change', either', runs, _⟩
  refine ⟨_, by rw [Undo.run, sameTree, runs]; rfl, ⟨change', either', rfl⟩, ?_⟩
  exact effect.undo_ephemerals sound.indexed sameEphemerals

theorem TreeSound.restored (sound : TreeSound before) (restored : TreeRestored before later) :
    TreeSound later := by
  rcases restored with ⟨⟨change, either, sameTree⟩, sameEphemerals⟩
  have related : Haunted before.dataTree later.dataTree := sameTree ▸ .of_modify either
  exact ⟨sound.wellFormed.haunted related, (sound.indexed.haunted related).congr sameEphemerals⟩

theorem StoreRequestMultiTxn.Leaves.treeSound {trace : Trace} {rolledBack : Bool}
    (leaves : Leaves zxid session time before trace rolledBack [] after) (sound : TreeSound before)
    (noAlias : ∀ entry ∈ trace, entry.2.aliases = false) : TreeSound after :=
  leaves.invariant (fun _ undo => undo.aliases = false) (fun effect => effect.treeSound)
    (fun _ => fun effect => effect.treeRestored) (fun _ => .refl _) TreeSound.restored sound noAlias

theorem TreeSound.modifyData {state : StoreState} (sound : TreeSound state) (path data : Bytes) :
    TreeSound
      { state with
        dataTree := state.dataTree.modify path fun node => { node with data := data } } := by
  refine ⟨sound.wellFormed.of_related ?_,
    sound.indexed.modify path fun _ _ => ⟨rfl, rfl, fun _ childless => childless⟩⟩
  exact .change (fun _ _ => .of_eq rfl) fun _ _ => .of_eq rfl

end

namespace KeeperStore

variable {platform : Platform} {store after : KeeperStore} {call : Call}

/-- No Create that a call starts is for two slashes and a name. -/
def createsNoAlias (platform : Platform) (store : KeeperStore) (call : Call) : Prop :=
  ∀ step ∈ store.steps platform call, step.2.aliases = false

instance : Decidable (createsNoAlias platform store call) :=
  inferInstanceAs (Decidable (∀ step ∈ store.steps platform call, step.2.aliases = false))

theorem createsNoAlias.trace (meets : store.createsNoAlias platform call) :
    ∀ entry ∈ store.trace platform call, entry.2.aliases = false := by
  rintro ⟨state, undo⟩ isMember
  rcases exists_step_of_trace isMember with ⟨request, isStep, undone⟩
  have noAlias := meets _ isStep
  cases undone with
  | nothing | remove | set => rfl
  | create isCreate =>
    subst isCreate
    by_contra aliases
    rw [CreateRequest.aliases_of_undo (by simpa [Undo.aliases] using aliases)] at noAlias
    cases noAlias

end KeeperStore

variable {platform : Platform}

theorem CallEffect.treeSound {store : KeeperStore} {call : Call} {after : StoreState}
    (effect : CallEffect platform store call after) (sound : TreeSound store.toStoreState)
    (noAlias : store.createsNoAlias platform call) :
    TreeSound after := by
  cases effect with
  | leaves zxid leaves => exact leaves.treeSound sound noAlias.trace
  | auth => exact ⟨sound.wellFormed, sound.indexed⟩
  | setACL nodeAcls auths sameAuths found =>
    exact ⟨sound.wellFormed.update found rfl,
      sound.indexed.replace found ⟨rfl, rfl, fun _ childless => childless⟩⟩
  | close order session =>
    rcases sound.indexed.close
      (fun wf found childless => TreeWellFormed.lose wf found childless fun _ => rfl)
      sound.wellFormed order session with ⟨wellFormed, indexed⟩
    exact ⟨wellFormed, indexed⟩

variable {path : Bytes} {tree : DataTree} {node : KeeperNode}

theorem KeeperStore.eq_of_lookup_new {interval : Int64} {digest : Bytes}
    (found : (new interval digest).dataTree.lookup path = some node) :
    path = rootPath ∧ node = {} := by
  by_cases isRoot : path = rootPath
  · subst isRoot
    rw [new, lookup_singleton_eq] at found
    cases found
    exact ⟨rfl, rfl⟩
  · have absent : path ∉ (new interval digest).dataTree := by simpa [new] using isRoot
    rw [lookup_eq_none.mpr absent] at found
    cases found

theorem treeSound_new (interval : Int64) (digest : Bytes) :
    TreeSound (KeeperStore.new interval digest).toStoreState := by
  have onlyRoot : ∀ {path node}, (KeeperStore.new interval digest).dataTree.lookup path =
      some node → path = rootPath ∧ node = {} := KeeperStore.eq_of_lookup_new
  refine ⟨⟨?_, ?_, ?_⟩, ⟨?_, ?_, ?_, ?_⟩⟩
  · intro path node found notRoot
    exact absurd (onlyRoot found).1 notRoot
  · intro path node found notRoot
    exact absurd (onlyRoot found).1 notRoot
  · intro path node name found listed
    simp [(onlyRoot found).2] at listed
  · intro session path isMember
    simp [KeeperStore.new, ephemeralsOf] at isMember
  · intro path node found isEphemeral
    simp [(onlyRoot found).2] at isEphemeral
  · intro path node found _
    rw [(onlyRoot found).2]
  · intro node found
    rw [(onlyRoot found).2]

/-- The path of a system node leads from its parent to its name. -/
structure SystemPath (path : Bytes) : Prop where
  isChild : path = childPath (getParentPath path) (getBaseName path)
  named : getBaseName path ≠ []
  noSlash : slash ∉ getBaseName path

theorem SystemPath.parent_ne (systemPath : SystemPath path) : getParentPath path ≠ path := by
  have shorter := length_lt_length_childPath (getParentPath path) (getBaseName path)
    (.inr systemPath.named)
  rw [← systemPath.isChild] at shorter
  exact fun same => absurd shorter (by simp [same])

variable {after : DataTree}

theorem addSystemNode_cases (added : addSystemNode tree path = some after)
    (systemPath : SystemPath path) :
    after = tree ∨
      (tree.lookup path = none ∧ ∃ parent, tree.lookup (getParentPath path) = some parent ∧
        after = (tree.modify (getParentPath path) fun parent =>
          { parent with children := insert (getBaseName path) parent.children }).insert path
            {}) := by
  simp only [addSystemNode, lookup_insert_ite, if_neg systemPath.parent_ne] at added
  split at added
  · cases added
    exact .inl rfl
  rename_i isAbsent
  cases parentFound : tree.lookup (getParentPath path) with
  | none => simp [parentFound] at added
  | some parent =>
    simp only [parentFound, some.injEq] at added
    refine .inr ⟨by simpa using isAbsent, parent, rfl, ?_⟩
    rw [← added, modify_insert_of_ne systemPath.parent_ne]

variable {state : StoreState}

theorem TreeSound.addSystemNode (sound : TreeSound state)
    (added : addSystemNode state.dataTree path = some tree) (systemPath : SystemPath path)
    (persistent : ∀ parent, state.dataTree.lookup (getParentPath path) = some parent →
      parent.isEphemeral = false) :
    TreeSound { state with dataTree := tree } := by
  rcases addSystemNode_cases added systemPath with rfl | ⟨absent, parent, parentFound, rfl⟩
  · exact sound
  · refine ⟨sound.wellFormed.gain parentFound systemPath.isChild systemPath.named
      systemPath.noSlash absent rfl fun _ => rfl, ?_⟩
    refine (sound.indexed.modify _ fun old found => ?_).add {} ?_
      (fun _ => ne_rootPath_of_getBaseName systemPath.named) rfl fun _ => rfl
    · exact .of_persistent (persistent old found) rfl rfl
    · rw [lookup_modify, if_neg systemPath.parent_ne.symm, absent]

theorem TreeSound.persistent (sound : TreeSound state) (noEphemerals : state.ephemerals = ∅)
    (found : state.dataTree.lookup path = some node) : node.isEphemeral = false := by
  by_contra isEphemeral
  have listed := sound.indexed.listed found (by simpa using isEphemeral)
  simp [noEphemerals, ephemeralsOf] at listed

theorem addSystemNodes_invariant (property : DataTree → Prop)
    (added : addSystemNodes platform tree = some after) (initially : property tree)
    (keptNode : ∀ {before path after}, SystemPath path → property before →
      addSystemNode before path = some after → property after)
    (keptData : ∀ {before} path data, property before →
      property (before.modify path fun node => { node with data := data })) : property after := by
  unfold addSystemNodes at added
  split at added
  · rcases bind_eq_some_iff.mp added with ⟨first, addedFirst, added⟩
    have holds := keptNode ⟨by decide, by decide, by decide⟩ initially addedFirst
    exact keptNode ⟨by decide, by decide, by decide⟩ holds added
  · rcases map_eq_some_iff.mp added with ⟨third, addedThird, rfl⟩
    rcases bind_eq_some_iff.mp addedThird with ⟨second, addedSecond, addedThird⟩
    rcases bind_eq_some_iff.mp addedSecond with ⟨first, addedFirst, addedSecond⟩
    have holds := keptNode ⟨by decide, by decide, by decide⟩ initially addedFirst
    have holds := keptNode ⟨by decide, by decide, by decide⟩ holds addedSecond
    have holds := keptNode ⟨by decide, by decide, by decide⟩ holds addedThird
    exact keptData _ _ (keptData _ _ holds)

theorem KeeperStore.Started.treeSound {start : KeeperStore} (started : Started platform start) :
    TreeSound start.toStoreState ∧ start.ephemerals = ∅ := by
  rcases started with ⟨interval, digest, starts⟩
  rcases map_eq_some_iff.mp starts with ⟨tree, added, rfl⟩
  refine ⟨?_, rfl⟩
  refine addSystemNodes_invariant
    (fun tree => TreeSound { (new interval digest).toStoreState with dataTree := tree }) added
    (treeSound_new interval digest) ?_ fun path data sound => sound.modifyData path data
  intro before path after systemPath sound added
  exact sound.addSystemNode added systemPath fun _ => sound.persistent rfl

/-- What holds of a fresh node and survives a new child and new data holds of every node of the tree
a server starts with. -/
theorem KeeperStore.Started.everywhere {start : KeeperStore} (started : Started platform start)
    {property : KeeperNode → Prop} (fresh : property {})
    (keptChildren : ∀ {node name}, name ≠ [] → property node →
      property { node with children := insert name node.children })
    (keptData : ∀ {node} data, property node → property { node with data := data }) :
    Everywhere (fun _ => property) start.dataTree := by
  rcases started with ⟨interval, digest, starts⟩
  rcases map_eq_some_iff.mp starts with ⟨tree, added, rfl⟩
  refine addSystemNodes_invariant (Everywhere fun _ => property) added ?_ ?_ ?_
  · intro path node found
    rw [(eq_of_lookup_new found).2]
    exact fresh
  · intro before path after systemPath holds added
    rcases addSystemNode_cases added systemPath with rfl | ⟨_, _, _, rfl⟩
    · exact holds
    · exact (holds.modify _ fun _ => keptChildren systemPath.named).insert fresh
  · intro before path data holds
    exact holds.modify path fun _ => keptData data

/-- Below every node the tree holds exactly the children that the node lists. -/
def ChildrenExact (tree : DataTree) : Prop :=
  ∀ path node, tree.lookup path = some node → ∀ name ∈ node.children, ∀ other,
    (other ∈ tree ∧ getParentPath other = path ∧ getBaseName other = name) ↔
      other = childPath path name

theorem TreeWellFormed.childrenExact (wf : TreeWellFormed tree) : ChildrenExact tree := by
  intro path node found name listed other
  constructor
  · rintro ⟨isMember, rfl, rfl⟩
    rcases isSome_iff_exists.mp (lookup_isSome.mpr isMember) with ⟨_, foundOther⟩
    by_cases isRoot : other = rootPath
    · rw [isRoot]
      rfl
    · exact (wf.canonical foundOther isRoot).1
  · rintro rfl
    rcases wf.child found listed with ⟨_, noSlash, present⟩ | ⟨rfl, rfl⟩
    · exact ⟨lookup_isSome.mp present, wf.split_childPath found noSlash⟩
    · refine ⟨?_, by decide⟩
      rw [show childPath rootPath [] = rootPath by rfl, ← lookup_isSome, found]
      rfl

namespace KeeperStore

variable {platform : Platform} {start store : KeeperStore}

theorem reachable_treeSound (started : Started platform start)
    (reached : ReachableBy (next platform) (createsNoAlias platform) start store) :
    TreeSound store.toStoreState :=
  reached.invariant (TreeSound ·.toStoreState) started.treeSound.1 fun sound noAlias moves =>
    (next_callEffect moves).treeSound sound noAlias

/--
In every state reached by calls that create no alias, a node other than the root is
listed by its parent, and the names that a node lists are those of its children.
-/
theorem dataTree_wellFormed (started : Started platform start)
    (reached : ReachableBy (next platform) (createsNoAlias platform) start store) :
    (∀ path ∈ store.dataTree, path ≠ rootPath →
      ∃ parent, store.dataTree.lookup (getParentPath path) = some parent ∧
        getBaseName path ∈ parent.children) ∧
    ChildrenExact store.dataTree := by
  have wf := (reachable_treeSound started reached).wellFormed
  refine ⟨fun path isMember notRoot => ?_, wf.childrenExact⟩
  rcases isSome_iff_exists.mp (lookup_isSome.mpr isMember) with ⟨node, found⟩
  exact wf.parent found notRoot

def doubleSlashRun : List Call :=
  [.sampleSession, .sample 1 (.single (.create { path := ascii "/x" })),
    .sample 1 (.single (.create { path := ascii "//x" }))]

/-- A path with two leading slashes is a second child of the root under one name. -/
theorem create_doubleSlash_breaks_tree :
    ∃ store, ReachableBy (next .sample) (fun _ _ => True) sample store ∧
      ascii "/x" ∈ store.dataTree ∧ ascii "//x" ∈ store.dataTree ∧
      ¬ ChildrenExact store.dataTree := by
  refine exists_reached_of (fun store => ascii "/x" ∈ store.dataTree ∧
    ascii "//x" ∈ store.dataTree ∧ ∃ root, store.dataTree.lookup rootPath = some root ∧
      ascii "x" ∈ root.children) doubleSlashRun (by decide) ?_
  rintro store reached ⟨single, double, root, rootFound, listed⟩
  refine ⟨single, double, fun exact => ?_⟩
  have same := (exact rootPath root rootFound _ listed (ascii "//x")).mp ⟨double, by decide⟩
  exact absurd same (by decide)

def nestedRun : List Call :=
  [.sampleSession, .sample 1 (.single (.create { path := ascii "/x" })),
    .sample 1 (.single (.create { path := ascii "/x/y", isSequential := true })),
    .sample 1 (.multi .write [.single (.remove { path := ascii "/x/y0000000000" }),
      .single (.create { path := ascii "/z", isEphemeral := true }),
      .single (.check { path := ascii "/x/y0000000000" })]),
    .sample 1 (.single .close)]

theorem dataTree_wellFormed_nestedRun :
    ∃ store, ReachableBy (next .sample) (createsNoAlias .sample) sample store ∧
      ascii "/x/y0000000000" ∈ store.dataTree ∧
      (∀ path ∈ store.dataTree, path ≠ rootPath →
        ∃ parent, store.dataTree.lookup (getParentPath path) = some parent ∧
          getBaseName path ∈ parent.children) ∧
      ChildrenExact store.dataTree := by
  exact exists_reached_of _ nestedRun (by decide) fun reached isMember =>
    ⟨isMember, dataTree_wellFormed started_sample reached⟩

end KeeperStore

end RaftKeeper
