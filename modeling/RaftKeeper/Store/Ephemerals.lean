import RaftKeeper.Store.TreeWellFormed

/-!
# Ephemeral nodes

The store indexes the ephemeral nodes by session. `EphemeralsIndexed` says that the
index and the flags of the nodes agree and that ephemeral nodes have no children, so
that closing a session removes leaves only.
-/

namespace RaftKeeper

open Finmap List

/-- The index lists the ephemeral nodes under their owners; they have no children. -/
structure EphemeralsIndexed (tree : DataTree) (ephemerals : Dict Int64 (Finset Bytes)) : Prop where
  owned : ∀ {session path}, path ∈ ephemeralsOf ephemerals session →
    ∃ node, tree.lookup path = some node ∧ node.isEphemeral ∧ node.stat.ephemeralOwner = session
  listed : ∀ {path node}, tree.lookup path = some node → node.isEphemeral →
    path ∈ ephemeralsOf ephemerals node.stat.ephemeralOwner
  leaf : ∀ {path node}, tree.lookup path = some node → node.isEphemeral → node.children = ∅
  root : ∀ {node}, tree.lookup rootPath = some node → node.isEphemeral = false

/-- Nothing that the index depends on has changed. -/
structure SameOwnership (old new : KeeperNode) : Prop where
  isEphemeral : new.isEphemeral = old.isEphemeral
  owner : new.stat.ephemeralOwner = old.stat.ephemeralOwner
  leaf : old.isEphemeral → old.children = ∅ → new.children = ∅

theorem SameOwnership.refl (node : KeeperNode) : SameOwnership node node :=
  ⟨rfl, rfl, fun _ childless => childless⟩

theorem SameOwnership.of_persistent {old new : KeeperNode} (persistent : old.isEphemeral = false)
    (isEphemeral : new.isEphemeral = old.isEphemeral)
    (owner : new.stat.ephemeralOwner = old.stat.ephemeralOwner) : SameOwnership old new :=
  ⟨isEphemeral, owner, fun wasEphemeral => by simp [persistent] at wasEphemeral⟩

namespace EphemeralsIndexed

variable {tree after : DataTree} {ephemerals : Dict Int64 (Finset Bytes)} {path : Bytes}
  {node : KeeperNode} (indexed : EphemeralsIndexed tree ephemerals)

include indexed

theorem of_related (same : Related (fun _ => SameOwnership) tree after) :
    EphemeralsIndexed after ephemerals := by
  refine ⟨?_, ?_, ?_, ?_⟩
  · intro session path isMember
    rcases indexed.owned isMember with ⟨old, found, isEphemeral, owner⟩
    rcases same.lookup_some found with ⟨new, foundNew, same⟩
    exact ⟨new, foundNew, same.isEphemeral ▸ isEphemeral, same.owner ▸ owner⟩
  · intro path new foundNew isEphemeral
    rcases same.lookup_twin foundNew with ⟨old, found, same⟩
    rw [same.owner]
    exact indexed.listed found (same.isEphemeral ▸ isEphemeral)
  · intro path new foundNew isEphemeral
    rcases same.lookup_twin foundNew with ⟨old, found, same⟩
    have wasEphemeral := same.isEphemeral ▸ isEphemeral
    exact same.leaf wasEphemeral (indexed.leaf found wasEphemeral)
  · intro new foundNew
    rcases same.lookup_twin foundNew with ⟨old, found, same⟩
    rw [same.isEphemeral]
    exact indexed.root found

theorem replace {updated : KeeperNode} (found : tree.lookup path = some node)
    (same : SameOwnership node updated) :
    EphemeralsIndexed (tree.insert path updated) ephemerals :=
  indexed.of_related (.replace (fun _ => .refl) found same)

theorem modify (path : Bytes) {change : KeeperNode → KeeperNode}
    (same : ∀ old, tree.lookup path = some old → SameOwnership old (change old)) :
    EphemeralsIndexed (tree.modify path change) ephemerals :=
  indexed.of_related (.change (fun _ => .refl) same)

theorem add (node : KeeperNode) (absent : tree.lookup path = none)
    (notRoot : node.isEphemeral → path ≠ rootPath) (leaf : node.children = ∅) {session : Int64}
    (owner : node.isEphemeral → node.stat.ephemeralOwner = session) :
    EphemeralsIndexed (tree.insert path node)
      (if node.isEphemeral then addEphemeralNode ephemerals session path else ephemerals) := by
  have lookupNew : ∀ other, (tree.insert path node).lookup other =
      if other = path then some node else tree.lookup other :=
    fun other => lookup_insert_ite _ _ _ _
  have members : ∀ {other owner}, other ∈ ephemeralsOf
      (if node.isEphemeral then addEphemeralNode ephemerals session path else ephemerals) owner ↔
        other ∈ ephemeralsOf ephemerals owner ∨
          (node.isEphemeral ∧ other = path ∧ owner = session) := by
    intro other owner
    by_cases isEphemeral : node.isEphemeral
    · simp only [isEphemeral, if_true, ephemeralsOf_addEphemeralNode, true_and]
      by_cases same : owner = session
      · simp [same, or_comm]
      · simp [same]
    · simp [isEphemeral]
  refine ⟨?_, ?_, ?_, ?_⟩
  · intro holder other isMember
    rcases members.mp isMember with wasMember | ⟨isEphemeral, rfl, rfl⟩
    · rcases indexed.owned wasMember with ⟨old, found, facts⟩
      have distinct : other ≠ path := by
        rintro rfl
        simp [found] at absent
      exact ⟨old, by rw [lookupNew, if_neg distinct, found], facts⟩
    · exact ⟨node, by rw [lookupNew, if_pos rfl], isEphemeral, owner isEphemeral⟩
  · intro other new foundNew isEphemeral
    rw [lookupNew] at foundNew
    rw [members]
    split at foundNew
    · rename_i same
      cases foundNew
      exact .inr ⟨isEphemeral, same, owner isEphemeral⟩
    · exact .inl (indexed.listed foundNew isEphemeral)
  · exact Everywhere.insert (fun _ _ => indexed.leaf) (fun _ => leaf) _ _
  · intro new foundNew
    rw [lookupNew] at foundNew
    split at foundNew
    next isRoot =>
      cases foundNew
      exact Bool.eq_false_iff.mpr fun isEphemeral => notRoot isEphemeral isRoot.symm
    next => exact indexed.root foundNew

theorem erase (found : tree.lookup path = some node) :
    EphemeralsIndexed (tree.erase path)
      (if node.isEphemeral then
        removeEphemeralNode ephemerals node.stat.ephemeralOwner path
      else ephemerals) := by
  have members : ∀ {other owner}, other ∈ ephemeralsOf
      (if node.isEphemeral then
        removeEphemeralNode ephemerals node.stat.ephemeralOwner path
      else ephemerals) owner ↔ other ∈ ephemeralsOf ephemerals owner ∧ other ≠ path := by
    intro other owner
    have ownsPath : path ∈ ephemeralsOf ephemerals owner →
        node.isEphemeral ∧ node.stat.ephemeralOwner = owner := by
      intro isMember
      rcases indexed.owned isMember with ⟨held, heldFound, facts⟩
      rw [found] at heldFound
      cases heldFound
      exact facts
    by_cases isEphemeral : node.isEphemeral
    · simp only [isEphemeral, if_true, ephemeralsOf_removeEphemeralNode]
      by_cases same : owner = node.stat.ephemeralOwner
      · simp [same, and_comm]
      · simp only [same, if_false, iff_self_and]
        rintro isMember rfl
        exact same (ownsPath isMember).2.symm
    · simp only [isEphemeral, Bool.false_eq_true, if_false, iff_self_and]
      rintro isMember rfl
      exact isEphemeral (ownsPath isMember).1
  refine ⟨?_, ?_, ?_, ?_⟩ <;> simp only [lookup_erase_eq_some]
  · intro session other isMember
    rcases members.mp isMember with ⟨wasMember, distinct⟩
    rcases indexed.owned wasMember with ⟨old, foundOld, facts⟩
    exact ⟨old, ⟨distinct, foundOld⟩, facts⟩
  · intro other new foundNew isEphemeral
    exact members.mpr ⟨indexed.listed foundNew.2 isEphemeral, foundNew.1⟩
  · exact fun foundNew => indexed.leaf foundNew.2
  · exact fun foundNew => indexed.root foundNew.2

theorem congr {others : Dict Int64 (Finset Bytes)}
    (same : ∀ session, ephemeralsOf others session = ephemeralsOf ephemerals session) :
    EphemeralsIndexed tree others where
  owned isMember := indexed.owned (same _ ▸ isMember)
  listed found isEphemeral := same _ ▸ indexed.listed found isEphemeral
  leaf := indexed.leaf
  root := indexed.root

theorem lose (found : tree.lookup path = some node) (shrink : KeeperNode → KeeperNode)
    (same : ∀ old, SameOwnership old (shrink old)) :
    EphemeralsIndexed ((tree.modify (getParentPath path) shrink).erase path)
      (if node.isEphemeral then
        removeEphemeralNode ephemerals node.stat.ephemeralOwner path
      else ephemerals) := by
  have modified := indexed.modify (getParentPath path) fun old _ => same old
  by_cases ownParent : path = getParentPath path
  · have foundNew : (tree.modify (getParentPath path) shrink).lookup path = some (shrink node) := by
      rw [lookup_modify, if_pos ownParent, ← ownParent, found]
      rfl
    have erased := modified.erase foundNew
    rwa [(same node).isEphemeral, (same node).owner] at erased
  · have foundNew : (tree.modify (getParentPath path) shrink).lookup path = some node := by
      rw [lookup_modify, if_neg ownParent, found]
    exact modified.erase foundNew

end EphemeralsIndexed

theorem ne_rootPath_of_getBaseName {path : Bytes} (named : getBaseName path ≠ []) :
    path ≠ rootPath := by
  rintro rfl
  exact named getBaseName_rootPath

variable {session : Int64}

theorem Effect.ephemeralsIndexed {zxid time : Int64} {before after : StoreState} {undo : Undo}
    (effect : Effect zxid session time before after undo)
    (indexed : EphemeralsIndexed before.dataTree before.ephemerals) :
    EphemeralsIndexed after.dataTree after.ephemerals := by
  cases effect with
  | auths => exact indexed
  | @create request parent nodeAcls auths sameAuths parentFound persistent absent named =>
    have sameParent : ∀ old, before.dataTree.lookup (getParentPath request.path) = some old →
        SameOwnership old (old.gainChild zxid (getBaseName (request.pathCreated parent))) := by
      intro old found
      rw [parentFound] at found
      cases found
      exact .of_persistent persistent rfl rfl
    have modified := indexed.modify _ sameParent
    have absentStill : (before.dataTree.modify (getParentPath request.path)
        (.gainChild zxid (getBaseName (request.pathCreated parent)))).lookup
          (request.pathCreated parent) = none := by
      rw [lookup_modify]
      split
      · rename_i same
        rw [same, parentFound] at absent
        cases absent
      · exact absent
    refine modified.add (request.node zxid session time _) absentStill
      (fun _ => ne_rootPath_of_getBaseName named) rfl ?_
    intro isEphemeral
    exact if_pos isEphemeral
  | remove found _ _ => exact indexed.lose found _ fun _ => ⟨rfl, rfl, by
      simp +contextual [KeeperNode.loseChild]⟩
  | set data found => exact indexed.replace found ⟨rfl, rfl, fun _ childless => childless⟩

variable {property : DataTree → Prop} {tree : DataTree} {ephemerals : Dict Int64 (Finset Bytes)}

theorem foldl_dropEphemeral
    (loses : ∀ {tree : DataTree} {path : Bytes} {node : KeeperNode}, property tree →
      tree.lookup path = some node → node.children = ∅ → property (dropEphemeral tree path))
    {paths : List Bytes} (holds : property tree) (indexed : EphemeralsIndexed tree ephemerals)
    (owned : ∀ path ∈ paths, path ∈ ephemeralsOf ephemerals session) (nodup : paths.Nodup) :
    property (paths.foldl dropEphemeral tree) ∧
      ∃ remaining, EphemeralsIndexed (paths.foldl dropEphemeral tree) remaining ∧
        ∀ other, ephemeralsOf remaining other =
          if other = session then ephemeralsOf ephemerals session \ paths.toFinset
          else ephemeralsOf ephemerals other := by
  -- along the loop the index loses one path after the other
  induction paths generalizing tree ephemerals with
  | nil =>
    refine ⟨holds, ephemerals, indexed, fun other => ?_⟩
    split
    · rename_i same
      simp [same]
    · rfl
  | cons path rest ih =>
    rcases indexed.owned (owned path mem_cons_self) with ⟨node, found, isEphemeral, owner⟩
    have droppedHolds : property (dropEphemeral tree path) :=
      loses holds found (indexed.leaf found isEphemeral)
    have droppedIndexed : EphemeralsIndexed (dropEphemeral tree path)
        (removeEphemeralNode ephemerals session path) := by
      have lost := indexed.lose found (fun parent =>
        { parent with
          children := parent.children.erase (getBaseName path)
          stat := { parent.stat with numChildren := parent.stat.numChildren - 1 } })
        fun _ => ⟨rfl, rfl, by simp +contextual⟩
      rwa [if_pos isEphemeral, owner] at lost
    have restOwned : ∀ other ∈ rest,
        other ∈ ephemeralsOf (removeEphemeralNode ephemerals session path) session := by
      intro other isMember
      rw [ephemeralsOf_removeEphemeralNode, if_pos rfl, Finset.mem_erase]
      refine ⟨?_, owned other (mem_cons_of_mem _ isMember)⟩
      rintro rfl
      exact (nodup_cons.mp nodup).1 isMember
    rcases ih droppedHolds droppedIndexed restOwned (nodup_cons.mp nodup).2 with
      ⟨finalHolds, remaining, finalIndexed, remains⟩
    refine ⟨finalHolds, remaining, finalIndexed, fun other => ?_⟩
    rw [remains]
    split
    · rw [ephemeralsOf_removeEphemeralNode, if_pos rfl]
      ext member
      simp only [Finset.mem_sdiff, Finset.mem_erase, mem_toFinset, mem_cons, not_or]
      tauto
    · rename_i distinct
      rw [ephemeralsOf_removeEphemeralNode, if_neg distinct]

theorem EphemeralsIndexed.close
    (loses : ∀ {tree : DataTree} {path : Bytes} {node : KeeperNode}, property tree →
      tree.lookup path = some node → node.children = ∅ → property (dropEphemeral tree path))
    (holds : property tree) (indexed : EphemeralsIndexed tree ephemerals)
    (order : Enumeration Int64 Bytes) (session : Int64) :
    property ((order.list session (ephemeralsOf ephemerals session)).foldl dropEphemeral tree) ∧
      EphemeralsIndexed
        ((order.list session (ephemeralsOf ephemerals session)).foldl dropEphemeral tree)
        (ephemerals.erase session) := by
  have owned : ∀ path ∈ order.list session (ephemeralsOf ephemerals session),
      path ∈ ephemeralsOf ephemerals session := fun path => order.mem_list.mp
  rcases foldl_dropEphemeral loses holds indexed owned (order.nodup_list ..) with
    ⟨finalHolds, remaining, finalIndexed, remains⟩
  refine ⟨finalHolds, finalIndexed.congr fun other => ?_⟩
  rw [remains, ephemeralsOf, lookup_erase_ite]
  split
  · have everyPath : ephemeralsOf ephemerals session ⊆
        (order.list session (ephemeralsOf ephemerals session)).toFinset := by
      intro path isMember
      rw [mem_toFinset, order.mem_list]
      exact isMember
    simpa using (Finset.sdiff_eq_empty_iff_subset.mpr everyPath).symm
  · rfl

end RaftKeeper
