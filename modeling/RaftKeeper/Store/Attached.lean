import RaftKeeper.Store.TreeInvariant

/-!
# What is left of the tree with ambiguous names

A path with two slashes makes the names of the root ambiguous, but below the root a name still
belongs to one node. `Attached` is kept by every call, and it is enough to see that a rollback gives
every node back to its owner.
-/

namespace RaftKeeper

open DataTree Finmap

/-- Below the root every node is listed by its parent. -/
structure Attached (tree : DataTree) : Prop where
  hasSlash : ∀ {path node}, tree.lookup path = some node → slash ∈ path
  listed : ∀ {path node}, tree.lookup path = some node → getParentPath path ≠ rootPath →
    ∃ parent, tree.lookup (getParentPath path) = some parent ∧ getBaseName path ∈ parent.children

theorem eq_of_getBaseName_eq {first second : Bytes} (firstSlash : slash ∈ first)
    (secondSlash : slash ∈ second) (sameParent : getParentPath first = getParentPath second)
    (notRoot : getParentPath first ≠ rootPath) (sameName : getBaseName first = getBaseName second) :
    first = second := by
  have isChild {path : Bytes} (present : slash ∈ path)
      (notRoot : getParentPath path ≠ rootPath) :
      path = childPath (getParentPath path) (getBaseName path) := by
    rcases eq_childPath_or_doubleSlash present with isChild | isDouble
    · exact isChild
    · refine absurd ?_ notRoot
      have noSlash := slash_notMem_getBaseName present
      rw [isDouble]
      exact @getParentPath_append_cons [slash] _ (List.cons_ne_nil _ _) noSlash
  rw [isChild firstSlash notRoot, isChild secondSlash (sameParent ▸ notRoot), sameParent, sameName]

variable {path : Bytes}

theorem eq_rootPath_of_getParentPath_eq (present : slash ∈ path)
    (isOwn : getParentPath path = path) : path = rootPath := by
  rcases exists_lastSlash present with ⟨before, after, rfl, noSlash⟩
  cases before with
  | nil =>
    rw [List.nil_append, getParentPath_slash_cons noSlash] at isOwn
    exact isOwn.symm
  | cons byte rest =>
    rw [getParentPath_append_cons (List.cons_ne_nil _ _) noSlash] at isOwn
    have isLength := congrArg List.length isOwn
    simp at isLength

namespace Attached

variable {tree after : DataTree} {path : Bytes} {node : KeeperNode}

theorem of_names (hasSlash : ∀ path ∈ tree, slash ∈ path)
    (listed : ∀ path ∈ tree, getParentPath path ≠ rootPath →
      tree.Names (getParentPath path) (getBaseName path)) : Attached tree :=
  ⟨fun found => hasSlash _ (mem_of_lookup_eq_some found),
    fun found => listed _ (mem_of_lookup_eq_some found)⟩

variable (attached : Attached tree)

include attached

theorem of_related
    (related : Related (fun _ old new => old.children ⊆ new.children) tree after) :
    Attached after where
  hasSlash := by
    intro path new found
    rcases related.lookup_twin found with ⟨old, foundOld, _⟩
    exact attached.hasSlash foundOld
  listed := by
    intro path new found notRoot
    rcases related.lookup_twin found with ⟨old, foundOld, _⟩
    rcases attached.listed foundOld notRoot with ⟨parent, foundParent, isListed⟩
    rcases related.lookup_some foundParent with ⟨newParent, foundNew, isKept⟩
    exact ⟨newParent, foundNew, isKept isListed⟩

theorem replace {updated : KeeperNode} (found : tree.lookup path = some node)
    (isKept : node.children ⊆ updated.children) :
    Attached (tree.insert path updated) := by
  refine attached.of_related (.replace ?_ found isKept)
  exact fun _ _ => Finset.Subset.refl _

variable {other : Bytes} {otherNode : KeeperNode}

theorem not_parent_of_absent (absent : tree.lookup path = none) (notRoot : path ≠ rootPath)
    (found : tree.lookup other = some otherNode) :
    getParentPath other ≠ path := by
  intro isParent
  rcases attached.listed found (isParent ▸ notRoot) with ⟨parent, foundParent, _⟩
  rw [isParent, absent] at foundParent
  cases foundParent

theorem not_parent_of_childless (found : tree.lookup path = some node)
    (childless : node.children = ∅) (notRoot : path ≠ rootPath)
    (foundOther : tree.lookup other = some otherNode) :
    getParentPath other ≠ path := by
  intro isParent
  rcases attached.listed foundOther (isParent ▸ notRoot) with ⟨parent, foundParent, isListed⟩
  rw [isParent, found] at foundParent
  cases foundParent
  rw [childless] at isListed
  exact Finset.notMem_empty _ isListed

theorem gain (present : slash ∈ path) (absent : tree.lookup path = none)
    (hasParent : getParentPath path ≠ rootPath → getParentPath path ∈ tree)
    {grow : KeeperNode → KeeperNode}
    (grows : ∀ old, (grow old).children = insert (getBaseName path) old.children) :
    Attached ((tree.insert path node).modify (getParentPath path) grow) := by
  refine of_names (fun other isPresent => ?_) fun other isPresent notRoot => ?_
  all_goals rcases mem_insert.mp (mem_modify.mp isPresent) with rfl | wasPresent
  · exact present
  · rcases mem_iff.mp wasPresent with ⟨old, found⟩
    exact attached.hasSlash found
  · exact (names_gain grows).mpr (.inr ⟨rfl, mem_insert.mpr (.inr (hasParent notRoot)), rfl⟩)
  · rcases mem_iff.mp wasPresent with ⟨old, found⟩
    have isListed := attached.listed found notRoot
    rw [names_gain grows, names_insert, if_neg]
    · exact .inl isListed
    · intro isPath
      rcases isListed with ⟨parent, foundParent, _⟩
      rw [isPath, absent] at foundParent
      cases foundParent

theorem lose (present : slash ∈ path)
    (noChild : ∀ {other otherNode}, tree.lookup other = some otherNode → other ≠ path →
      path ≠ rootPath → getParentPath other ≠ path) {shrink : KeeperNode → KeeperNode}
    (shrinks : ∀ old, (shrink old).children = old.children.erase (getBaseName path)) :
    Attached ((tree.erase path).modify (getParentPath path) shrink) := by
  refine of_names (fun other isPresent => ?_) fun other isPresent notRoot => ?_
  all_goals
    rcases mem_erase.mp (mem_modify.mp isPresent) with ⟨isOther, wasPresent⟩
    rcases mem_iff.mp wasPresent with ⟨old, found⟩
  · exact attached.hasSlash found
  · rw [names_lose shrinks, names_erase]
    refine ⟨⟨fun isPath => ?_, attached.listed found notRoot⟩, fun ⟨sameParent, sameName⟩ => ?_⟩
    · exact noChild found isOther (isPath ▸ notRoot) isPath
    · exact isOther (eq_of_getBaseName_eq (attached.hasSlash found) present sameParent notRoot
        sameName)

theorem drop (found : tree.lookup path = some node) (childless : node.children = ∅)
    (shrink : KeeperNode → KeeperNode)
    (shrinks : ∀ old, (shrink old).children = old.children.erase (getBaseName path)) :
    Attached ((tree.modify (getParentPath path) shrink).erase path) := by
  rw [erase_modify]
  refine attached.lose (attached.hasSlash found) (fun foundOther _ notRoot => ?_) shrinks
  exact attached.not_parent_of_childless found childless notRoot foundOther

theorem slash_mem {parent : KeeperNode}
    (parentFound : tree.lookup (getParentPath path) = some parent) : slash ∈ path := by
  by_contra noSlash
  rw [getParentPath_of_noSlash noSlash] at parentFound
  exact noSlash (attached.hasSlash parentFound)

end Attached

/-- The tree hangs together, and the index of ephemeral nodes is the one that its nodes give. -/
structure OwnershipSound (state : StoreState) : Prop where
  attached : Attached state.dataTree
  indexed : EphemeralsIndexed state.dataTree state.ephemerals

theorem OwnershipSound.persistent {state : StoreState} (sound : OwnershipSound state)
    {node parent : KeeperNode} (found : state.dataTree.lookup path = some node)
    (parentFound : state.dataTree.lookup (getParentPath path) = some parent) :
    parent.isEphemeral = false := by
  by_cases isRoot : getParentPath path = rootPath
  · exact sound.indexed.root (isRoot ▸ parentFound)
  · rcases sound.attached.listed found isRoot with ⟨listing, foundListing, isListed⟩
    rw [parentFound] at foundListing
    cases foundListing
    rw [Bool.eq_false_iff]
    intro isEphemeral
    rw [sound.indexed.leaf parentFound isEphemeral] at isListed
    exact Finset.notMem_empty _ isListed

section

variable {zxid session time : Int64} {before after later earlier : StoreState} {undo : Undo}

theorem Effect.attached (effect : Effect zxid session time before after undo)
    (attached : Attached before.dataTree) : Attached after.dataTree := by
  cases effect with
  | auths => exact attached
  | @create request parent nodeAcls auths sameAuths parentFound persistent absent named =>
    have present := attached.slash_mem parentFound
    have isParent := CreateRequest.getParentPath_pathCreated parent present
    have parentNe : getParentPath (request.pathCreated parent) ≠ request.pathCreated parent := by
      intro same
      rw [isParent] at same
      rw [same, absent] at parentFound
      cases parentFound
    rw [StoreState.addCreated, ← isParent, ← modify_insert_of_ne parentNe]
    refine attached.gain (CreateRequest.slash_mem_pathCreated parent present) absent
      (fun _ => mem_of_lookup_eq_some (isParent ▸ parentFound)) fun _ => rfl
  | @remove path node parent found childless parentFound =>
    exact attached.drop found childless _ fun _ => rfl
  | @set path node data found => exact attached.replace found (Finset.Subset.refl _)

theorem Effect.related_undo {relation : KeeperNode → KeeperNode → Prop}
    (effect : Effect zxid session time before after undo)
    (reflexive : ∀ node, relation node node)
    (ungained : ∀ parent new name, relation (parent.gainChild zxid name) new →
      relation parent (new.ungainChild parent.stat.pzxid name))
    (unlost : ∀ parent new name, relation (parent.loseChild zxid name) new →
      relation parent (new.unloseChild parent.stat.pzxid name))
    (unlostRoot : undo.removesRoot = true →
      ∀ root name, relation root (root.unloseChild root.stat.pzxid name))
    (attached : Attached before.dataTree)
    (same : Related (fun _ => relation) after.dataTree later.dataTree) :
    ∃ earlier, undo.run later = some earlier ∧
      Related (fun _ => relation) before.dataTree earlier.dataTree := by
  rcases effect.undo_returns fun _ => same.mem_iff.mpr with ⟨tree, undone⟩
  refine ⟨_, by rw [Undo.run, undone]; rfl, ?_⟩
  cases effect with
  | auths =>
    cases undone
    exact same
  | @create request parent nodeAcls auths sameAuths parentFound persistent absent named =>
    simp only [Undo.dataTree] at undone
    split at undone <;> cases undone
    refine same.undo_insert absent fun found isSame => ?_
    rw [parentFound] at found
    cases found
    exact ungained parent _ _ isSame
  | @remove path node parent found childless parentFound =>
    simp only [Undo.dataTree] at undone
    split at undone <;> cases undone
    refine same.undo_erase found (fun _ => reflexive node) (fun isOwn => ?_)
      fun _ old new foundOld isSame => ?_
    · -- Only the root is its own parent.
      have isRoot := eq_rootPath_of_getParentPath_eq (attached.hasSlash found) isOwn
      rw [isOwn, found] at parentFound
      cases parentFound
      exact unlostRoot (decide_eq_true isRoot) node _
    · rw [parentFound] at foundOld
      cases foundOld
      exact unlost parent new _ isSame
  | @set path node data found =>
    cases undone
    exact same.undo_replace found (reflexive node)

theorem Effect.ownershipSound (effect : Effect zxid session time before after undo)
    (sound : OwnershipSound before) : OwnershipSound after :=
  ⟨effect.attached sound.attached, effect.ephemeralsIndexed sound.indexed⟩

/-- What a rollback gives back. -/
structure OwnersRestored (before later : StoreState) : Prop where
  attached : Attached later.dataTree
  owners : Related (fun _ => SameOwnership) before.dataTree later.dataTree
  index : ∀ session, ephemeralsOf later.ephemerals session = ephemeralsOf before.ephemerals session

theorem OwnersRestored.refl {state : StoreState} (sound : OwnershipSound state) :
    OwnersRestored state state :=
  ⟨sound.attached, .refl (fun _ => .refl) _, fun _ => rfl⟩

theorem OwnersRestored.sound (restored : OwnersRestored before later)
    (sound : OwnershipSound before) : OwnershipSound later :=
  ⟨restored.attached, (sound.indexed.of_related restored.owners).congr restored.index⟩

theorem Effect.ownersRestored (effect : Effect zxid session time before after undo)
    (sound : OwnershipSound before) (restored : OwnersRestored after later) :
    ∃ earlier, undo.run later = some earlier ∧ OwnersRestored before earlier := by
  have index := effect.undo_ephemerals sound.indexed restored.index
  have owners := restored.owners
  rcases effect.undo_returns fun _ => owners.mem_iff.mpr with ⟨tree, undone⟩
  refine ⟨_, by rw [Undo.run, undone]; rfl, ?_⟩
  cases effect with
  | auths =>
    cases undone
    exact ⟨restored.attached, owners, index⟩
  | @create request parent nodeAcls auths sameAuths parentFound persistent absent named =>
    have present := sound.attached.slash_mem parentFound
    have isParent := CreateRequest.getParentPath_pathCreated parent present
    simp only [Undo.dataTree] at undone
    split at undone <;> cases undone
    refine ⟨?_, owners.undo_insert absent fun found same => ?_, index⟩
    · simp only [CreateRequest.undo, ← isParent]
      refine restored.attached.lose (CreateRequest.slash_mem_pathCreated parent present)
        (fun found isOther notRoot => ?_) fun _ => rfl
      -- the other nodes were there before the Create
      have isAfter := owners.mem_iff.mp (mem_of_lookup_eq_some found)
      have wasPresent := (mem_insert.mp isAfter).resolve_left isOther
      rcases mem_iff.mp (mem_modify.mp wasPresent) with ⟨_, foundBefore⟩
      exact sound.attached.not_parent_of_absent absent notRoot foundBefore
    · rw [parentFound] at found
      cases found
      exact .of_persistent persistent same.isEphemeral same.owner
  | @remove path node parent found childless parentFound =>
    have absent := owners.lookup_none (lookup_erase path _)
    have persistent := sound.persistent found parentFound
    simp only [Undo.dataTree] at undone
    split at undone <;> cases undone
    refine ⟨?_, owners.undo_erase found (fun _ => .refl node) (fun isOwn => ?_)
      fun _ old new foundOld same => ?_, index⟩
    · refine restored.attached.gain (sound.attached.hasSlash found) absent (fun notRoot => ?_)
        fun _ => rfl
      have parentNe : getParentPath path ≠ path := by
        intro isOwn
        rw [isOwn, eq_rootPath_of_getParentPath_eq (sound.attached.hasSlash found) isOwn]
          at notRoot
        exact notRoot rfl
      exact owners.mem_iff.mpr
        (mem_erase.mpr ⟨parentNe, mem_modify.mpr (mem_of_lookup_eq_some parentFound)⟩)
    · rw [isOwn, found] at parentFound
      cases parentFound
      exact .of_persistent persistent rfl rfl
    · rw [parentFound] at foundOld
      cases foundOld
      exact .of_persistent persistent same.isEphemeral same.owner
  | @set path node data found =>
    cases undone
    have ownersBefore := owners.undo_replace found (.refl node)
    refine ⟨.of_names (fun other isPresent => ?_) fun other isPresent notRoot => ?_,
      ownersBefore, index⟩
    all_goals rcases mem_iff.mp (ownersBefore.mem_iff.mp isPresent) with ⟨_, foundOld⟩
    · exact sound.attached.hasSlash foundOld
    · rw [names_insert]
      split
      next isParent =>
        rcases sound.attached.listed foundOld notRoot with ⟨listing, foundListing, isListed⟩
        rw [isParent, found] at foundListing
        cases foundListing
        exact isListed
      next =>
        have isLast := owners.mem_iff.mpr (mem_insert.mpr (.inr (mem_of_lookup_eq_some foundOld)))
        rcases mem_iff.mp isLast with ⟨_, foundLast⟩
        exact restored.attached.listed foundLast notRoot

variable {trace : Trace}

theorem Executed.ownersRestored (chain : Executed zxid session time before trace later)
    (sound : OwnershipSound before) (runs : Undo.runAll trace.undos later = some earlier) :
    OwnersRestored before earlier := by
  have soundLater := chain.invariant OwnershipSound (fun _ _ => True)
    (fun effect holds _ => effect.ownershipSound holds) sound fun _ _ => trivial
  rcases chain.rollback (fun _ _ => True) (fun effect holds _ => effect.ownershipSound holds)
    (fun effect sound _ => effect.ownersRestored sound) sound (fun _ _ => trivial)
    (.refl soundLater) with ⟨restored, runsRestored, owners⟩
  rw [runs] at runsRestored
  cases runsRestored
  exact owners

theorem StoreRequestMultiTxn.Leaves.ownershipSound {rolledBack : Bool}
    (leaves : Leaves zxid session time before trace rolledBack [] after)
    (sound : OwnershipSound before) : OwnershipSound after :=
  leaves.invariant (fun _ _ => True) (fun effect holds _ => effect.ownershipSound holds)
    (fun _ => fun effect sound _ => effect.ownersRestored sound) .refl
    (fun sound restored => restored.sound sound) sound fun _ _ => trivial

end

variable {platform : Platform} {store : KeeperStore}

theorem CallEffect.ownershipSound {call : Call} {after : StoreState}
    (effect : CallEffect platform store call after) (sound : OwnershipSound store.toStoreState) :
    OwnershipSound after := by
  cases effect with
  | leaves zxid leaves => exact leaves.ownershipSound sound
  | auth => exact ⟨sound.attached, sound.indexed⟩
  | setACL nodeAcls auths sameAuths found =>
    exact ⟨sound.attached.replace found (Finset.Subset.refl _),
      sound.indexed.replace found ⟨rfl, rfl, fun _ childless => childless⟩⟩
  | close order session =>
    rcases sound.indexed.close
      (fun attached found childless => Attached.drop attached found childless _ fun _ => rfl)
      sound.attached order session with ⟨attached, indexed⟩
    exact ⟨attached, indexed⟩

theorem TreeWellFormed.attached {tree : DataTree} (wf : TreeWellFormed tree) : Attached tree where
  hasSlash found := wf.slash_mem found
  listed {path node} found notBelow := by
    apply wf.parent found
    rintro rfl
    exact notBelow rfl

variable {start : KeeperStore}

theorem KeeperStore.Started.ownershipSound (started : Started platform start) :
    OwnershipSound start.toStoreState :=
  ⟨started.treeSound.1.wellFormed.attached, started.treeSound.1.indexed⟩

theorem KeeperStore.reachable_ownershipSound {allowed : KeeperStore → Call → Prop}
    (started : Started platform start) (reached : ReachableBy (next platform) allowed start store) :
    OwnershipSound store.toStoreState :=
  reached.invariant (OwnershipSound ·.toStoreState) started.ownershipSound fun sound _ moves =>
    (next_callEffect moves).ownershipSound sound

end RaftKeeper
