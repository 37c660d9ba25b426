import RaftKeeper.Store.Ephemerals

/-!
# Undoing operations

An undo action takes back exactly what its operation did, apart from three defects.

* The undo of a Create that made an alias erases the name of the other node.
* The undo of a Remove of the root adds the empty name to the children of the root
  (`KeeperNode.haunt`).
* A Remove that drops the last use of an access control list forgets the list for good.
-/

namespace RaftKeeper

open Finmap Finset KeeperNode

def Undo.removesRoot : Undo → Bool
  | remove undo => undo.path = rootPath
  | nothing | create _ | set .. => false

/-- What undoing the Remove of a root without children leaves of the root. -/
def KeeperNode.haunt (root : KeeperNode) : KeeperNode :=
  { root with
    children := insert [] root.children
    stat := { root.stat with numChildren := root.stat.numChildren + 1 } }

/-- The tree is `tree`, but for the empty name that the root may list. -/
inductive Haunted (tree : DataTree) : DataTree → Prop
  | exactly : Haunted tree tree
  | haunted : Haunted tree (tree.modify rootPath .haunt)

variable {tree later : DataTree}

theorem TreeWellFormed.haunted (wf : TreeWellFormed tree) (related : Haunted tree later) :
    TreeWellFormed later := by
  cases related with
  | exactly => exact wf
  | haunted =>
    refine wf.of_related (.change (fun _ _ => .of_eq rfl) fun root _ => ?_)
    refine ⟨subset_insert _ _, fun name isMember => ?_⟩
    rcases mem_insert.mp isMember with isNil | wasMember
    · exact .inr ⟨rfl, isNil⟩
    · exact .inl wasMember

theorem EphemeralsIndexed.haunted {ephemerals : Dict Int64 (Finset Bytes)}
    (indexed : EphemeralsIndexed tree ephemerals) (related : Haunted tree later) :
    EphemeralsIndexed later ephemerals := by
  cases related with
  | exactly => exact indexed
  | haunted =>
    refine indexed.modify rootPath fun root found => ⟨rfl, rfl, ?_⟩
    simp [indexed.root found]

theorem Haunted.of_modify {change : KeeperNode → KeeperNode}
    (either : change = id ∨ change = haunt) :
    Haunted tree (tree.modify rootPath change) := by
  rcases either with rfl | rfl
  · rw [modify_id]
    exact .exactly
  · exact .haunted

/-- The root may have changed, and no other node. -/
def RootChanged (change : KeeperNode → KeeperNode) (path : Bytes) (old new : KeeperNode) : Prop :=
  new = if path = rootPath then change old else old

theorem related_rootChanged {tree later : DataTree} {change : KeeperNode → KeeperNode} :
    Related (RootChanged change) tree later ↔ later = tree.modify rootPath change := by
  have lookups : ∀ path, (tree.modify rootPath change).lookup path =
      (tree.lookup path).map fun old => if path = rootPath then change old else old := by
    intro path
    rw [lookup_modify]
    split
    next isRoot => rw [isRoot]
    next => simp
  refine Related.iff_lookup_eq.trans ⟨fun same => ext_lookup fun path => ?_, ?_⟩
  · rw [same, lookups]
  · rintro rfl
    exact lookups

section

variable {zxid session time : Int64} {before after later : StoreState} {undo : Undo}
  {parent : KeeperNode} {change : KeeperNode → KeeperNode} {path name : Bytes} {new : KeeperNode}

theorem RootChanged.ungainChild (either : change = id ∨ change = haunt) (named : name ≠ [])
    (fresh : name ∉ parent.children)
    (changed : RootChanged change path (parent.gainChild zxid name) new) :
    RootChanged change path parent (new.ungainChild parent.stat.pzxid name) := by
  have ghostKept : (insert [] (insert name parent.children)).erase name =
      insert [] parent.children := by
    rw [erase_insert_of_ne (Ne.symm named), erase_insert fresh]
  have cancels : parent.stat.numChildren + 1 + 1 - 1 = parent.stat.numChildren + 1 := by simp
  rw [RootChanged] at changed ⊢
  rw [changed]
  split
  · rcases either with rfl | rfl
    · simp [gainChild, ungainChild, erase_insert fresh]
    · simp [gainChild, ungainChild, haunt, ghostKept, cancels]
  · simp [KeeperNode.gainChild, KeeperNode.ungainChild, erase_insert fresh]

theorem RootChanged.unloseChild (either : change = id ∨ change = haunt)
    (listed : name ∈ parent.children)
    (changed : RootChanged change path (parent.loseChild zxid name) new) :
    RootChanged change path parent (new.unloseChild parent.stat.pzxid name) := by
  have ghostKept : insert name (insert [] (parent.children.erase name)) =
      insert [] parent.children := by
    rw [insert_comm, insert_erase listed]
  rw [RootChanged] at changed ⊢
  rw [changed]
  split
  · rcases either with rfl | rfl
    · simp [loseChild, unloseChild, insert_erase listed]
    · simp [loseChild, unloseChild, haunt, ghostKept]
  · simp [KeeperNode.loseChild, KeeperNode.unloseChild, insert_erase listed]

theorem Effect.undo_returns (effect : Effect zxid session time before after undo) {tree : DataTree}
    (kept : ∀ path ∈ after.dataTree, path ∈ tree) :
    ∃ earlier, undo.dataTree tree = some earlier := by
  cases effect with
  | auths => exact ⟨_, rfl⟩
  | @create request parent nodeAcls auths sameAuths parentFound persistent absent named =>
    have parentKept : getParentPath request.path ∈ tree.erase (request.pathCreated parent) := by
      refine mem_erase.mpr ⟨fun isOwn => ?_, kept _ ?_⟩
      · rw [isOwn, absent] at parentFound
        cases parentFound
      · exact mem_insert.mpr (.inr (mem_modify.mpr
          (mem_of_lookup_eq_some parentFound)))
    rcases mem_iff.mp parentKept with ⟨_, found⟩
    simp only [Undo.dataTree, CreateRequest.undo, found]
    exact ⟨_, rfl⟩
  | @remove path node parent found childless parentFound =>
    have parentKept : getParentPath path ∈ tree.insert path node := by
      rw [Finmap.mem_insert, or_iff_not_imp_left]
      intro isOther
      exact kept _ (mem_erase.mpr
        ⟨isOther, mem_modify.mpr (mem_of_lookup_eq_some parentFound)⟩)
    rcases mem_iff.mp parentKept with ⟨_, found⟩
    simp only [Undo.dataTree, removeUndo, found]
    exact ⟨_, rfl⟩
  | set => exact ⟨_, rfl⟩

theorem Effect.undo_dataTree (effect : Effect zxid session time before after undo)
    (wf : TreeWellFormed before.dataTree) (noAlias : undo.aliases = false)
    (either : change = id ∨ change = haunt) :
    ∃ change', (change' = id ∨ change' = haunt) ∧
      undo.dataTree (after.dataTree.modify rootPath change) =
        some (before.dataTree.modify rootPath change') ∧
      (undo.removesRoot = false → change = id → change' = id) := by
  rcases effect.undo_returns fun _ => mem_modify.mpr with ⟨tree, undone⟩
  have same := (@related_rootChanged after.dataTree _ change).mpr rfl
  suffices ∃ change', (change' = id ∨ change' = haunt) ∧
      Related (RootChanged change') before.dataTree tree ∧
      (undo.removesRoot = false → change = id → change' = id) by
    rcases this with ⟨change', either', related, isId⟩
    exact ⟨change', either', by rw [undone, related_rootChanged.mp related], isId⟩
  cases effect with
  | auths auths =>
    cases undone
    exact ⟨change, either, same, fun _ isId => isId⟩
  | @create request parent nodeAcls auths sameAuths parentFound persistent absent named =>
    rcases wf.pathCreated parentFound noAlias with ⟨isChild, noSlash⟩
    have fresh : getBaseName (request.pathCreated parent) ∉ parent.children := by
      intro isMember
      rcases wf.child parentFound isMember with ⟨_, _, present⟩ | ⟨_, unnamed⟩
      · rw [← isChild, absent] at present
        cases present
      · exact named unnamed
    simp only [Undo.dataTree] at undone
    split at undone <;> cases undone
    refine ⟨change, either, same.undo_insert absent fun found changed => ?_, fun _ isId => isId⟩
    rw [parentFound] at found
    cases found
    exact changed.ungainChild either named fresh
  | @remove path node parent found childless parentFound =>
    simp only [Undo.dataTree] at undone
    split at undone <;> cases undone
    by_cases isRoot : path = rootPath
    · -- Nothing but the root was there, and it becomes its own child.
      subst isRoot
      rw [getParentPath_rootPath, found] at parentFound
      cases parentFound
      refine ⟨_, .inr rfl, ?_, by simp [Undo.removesRoot, removeUndo]⟩
      have alone : ∀ other, other ≠ rootPath → before.dataTree.lookup other = none := by
        intro other notRoot
        cases foundOther : before.dataTree.lookup other with
        | none => rfl
        | some _ => exact absurd (wf.only_root found childless foundOther) notRoot
      rw [related_rootChanged]
      apply ext_lookup
      intro other
      simp only [StoreState.dropRemoved, removeUndo, getParentPath_rootPath,
        getBaseName_rootPath, lookup_modify, lookup_insert_ite,
        lookup_erase_ite]
      by_cases isRoot : other = rootPath
      · simp [isRoot, found, unloseChild, haunt]
      · simp [isRoot, alone other isRoot]
    · rcases wf.parent found isRoot with ⟨above, aboveFound, listed⟩
      rw [parentFound] at aboveFound
      cases aboveFound
      have parentNe := wf.parent_ne found isRoot
      refine ⟨change, either, same.undo_erase found (fun _ => (if_neg isRoot).symm)
        (fun isOwn => absurd isOwn parentNe) fun _ old new foundOld changed => ?_,
        fun _ isId => isId⟩
      rw [parentFound] at foundOld
      cases foundOld
      exact changed.unloseChild either listed
  | @set path node data found =>
    cases undone
    by_cases isRoot : path = rootPath
    · refine ⟨id, .inl rfl, ?_, fun _ _ => rfl⟩
      rw [related_rootChanged, modify_id]
      apply ext_lookup
      intro other
      simp only [lookup_insert_ite, lookup_modify]
      by_cases same : other = path
      · rw [if_pos same, same, found]
      · simp [same, isRoot ▸ same]
    · exact ⟨change, either, same.undo_replace found (if_neg isRoot).symm, fun _ isId => isId⟩

theorem Effect.undo_ephemerals (effect : Effect zxid session time before after undo)
    (indexed : EphemeralsIndexed before.dataTree before.ephemerals)
    {ephemerals : Dict Int64 (Finset Bytes)}
    (same : ∀ owner, ephemeralsOf ephemerals owner = ephemeralsOf after.ephemerals owner)
    (owner : Int64) :
    ephemeralsOf (undo.ephemerals ephemerals) owner = ephemeralsOf before.ephemerals owner := by
  cases effect with
  | auths => exact same owner
  | @create request parent nodeAcls auths sameAuths parentFound persistent absent named =>
    have unlisted : request.pathCreated parent ∉ ephemeralsOf before.ephemerals session := by
      intro isMember
      rcases indexed.owned isMember with ⟨node, found, _⟩
      rw [absent] at found
      cases found
    simp only [StoreState.addCreated] at same
    simp only [Undo.ephemerals, CreateRequest.undo]
    by_cases isEphemeral : request.isEphemeral
    · simp only [isEphemeral, if_true, ephemeralsOf_addEphemeralNode] at same ⊢
      rw [ephemeralsOf_removeEphemeralNode, same, same]
      by_cases isOwner : owner = session
      · simp [isOwner, erase_insert unlisted]
      · simp [isOwner]
    · simpa [isEphemeral] using same owner
  | @remove path node parent found childless parentFound =>
    simp only [StoreState.dropRemoved] at same
    simp only [Undo.ephemerals, removeUndo]
    by_cases isEphemeral : node.isEphemeral
    · have isListed := indexed.listed found isEphemeral
      simp only [isEphemeral, if_true, ephemeralsOf_removeEphemeralNode] at same ⊢
      rw [ephemeralsOf_addEphemeralNode, same, same]
      by_cases isOwner : owner = node.stat.ephemeralOwner
      · simp [isOwner, insert_erase isListed]
      · simp [isOwner]
    · simpa [isEphemeral] using same owner
  | set => exact same owner

end

end RaftKeeper
