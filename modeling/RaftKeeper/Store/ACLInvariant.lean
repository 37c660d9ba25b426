import RaftKeeper.Store.TreeInvariant

/-!
# The access control lists of the tree

Every node that has a number of its own counts as a use of it, so the list behind the
number cannot be dropped while the node is there. SetACL and the end of a session do not
give a use back: the counters may exceed the number of nodes, but never fall below it.
-/

namespace RaftKeeper

open Finmap

/-- How many nodes have the number. -/
def DataTree.uses (tree : DataTree) (number : ℕ) : ℕ :=
  count (fun node : KeeperNode => node.aclId = number) tree

/-- The table is valid, and no list is counted less often than it is used. -/
structure AclSound (state : StoreState) : Prop where
  valid : state.aclMap.Valid
  tight : state.aclMap.Tight
  counted : ∀ number, number ≠ 0 → DataTree.uses state.dataTree number ≤ state.aclMap.usage number

/-- What holds of the lists even where the table has lists that no node uses. -/
structure AclCounted (state : StoreState) : Prop where
  valid : state.aclMap.Valid
  counted : ∀ number, number ≠ 0 → DataTree.uses state.dataTree number ≤ state.aclMap.usage number

variable {state : StoreState}

theorem AclSound.toAclCounted (sound : AclSound state) : AclCounted state :=
  ⟨sound.valid, sound.counted⟩

namespace AclCounted

variable {state : StoreState} {path : Bytes} {node : KeeperNode}

theorem used (sound : AclCounted state) (found : state.dataTree.lookup path = some node)
    (nonzero : node.aclId ≠ 0) : 0 < state.aclMap.usage node.aclId := by
  have counted := sound.counted node.aclId nonzero
  have positive : 0 < DataTree.uses state.dataTree node.aclId :=
    count_pos_of_lookup found (by simp)
  omega

theorem resolves (sound : AclCounted state) (found : state.dataTree.lookup path = some node) :
    ∃ acls, state.aclMap.convertNumber node.aclId = some acls := by
  by_cases zero : node.aclId = 0
  · exact ⟨_, by rw [zero, ACLMap.convertNumber_zero]⟩
  · rw [ACLMap.convertNumber_of_ne zero]
    exact sound.valid.lookup_eq_some_of_usage (sound.used found zero)

theorem counted_intern (sound : AclCounted state) {number : ℕ} (nonzero : number ≠ 0)
    (acls : ACLs) :
    DataTree.uses state.dataTree number + (if number = (state.aclMap.intern acls).1 then 1 else 0) ≤
      state.aclMap.usage number +
        if number = (state.aclMap.intern acls).1 ∧ (state.aclMap.intern acls).1 ≠ 0 then 1
        else 0 := by
  have counted := sound.counted number nonzero
  by_cases isNumber : number = (state.aclMap.intern acls).1
  · rw [if_pos isNumber, if_pos ⟨isNumber, isNumber ▸ nonzero⟩]
    omega
  · rw [if_neg isNumber, if_neg fun both => isNumber both.1]
    exact counted

end AclCounted

namespace DataTree

variable {tree : DataTree} {path parentPath : Bytes} {node : KeeperNode}
  (change : KeeperNode → KeeperNode)

theorem uses_modify (same : ∀ node, (change node).aclId = node.aclId) (path : Bytes) (number : ℕ) :
    uses (tree.modify path change) number = uses tree number :=
  count_modify (fun node => by simp [same]) path tree

theorem uses_replace {updated : KeeperNode} (found : tree.lookup path = some node)
    (same : updated.aclId = node.aclId) (number : ℕ) :
    uses (tree.insert path updated) number = uses tree number :=
  count_replace found (by simp [same])

theorem uses_insert (updated : KeeperNode) (number : ℕ) :
    uses (tree.insert path updated) number ≤
      uses tree number + if number = updated.aclId then 1 else 0 := by
  have counted := count_insert (fun node => decide (node.aclId = number)) tree path updated
  have erased := count_erase_le (fun node => decide (node.aclId = number)) tree path
  unfold uses
  rw [counted]
  by_cases isNumber : number = updated.aclId
  · simpa [isNumber] using erased
  · simpa [isNumber, Ne.symm isNumber] using erased

theorem uses_drop (same : ∀ node, (change node).aclId = node.aclId) (parentPath : Bytes)
    (found : tree.lookup path = some node) (number : ℕ) :
    uses ((tree.modify parentPath change).erase path) number +
      (if number = node.aclId then 1 else 0) = uses tree number := by
  have stillFound : ∃ left, (tree.modify parentPath change).lookup path = some left ∧
      left.aclId = node.aclId := by
    rw [lookup_modify]
    split
    · rename_i isParent
      exact ⟨change node, by rw [← isParent, found]; rfl, same node⟩
    · exact ⟨node, found, rfl⟩
  rcases stillFound with ⟨left, foundLeft, sameAcl⟩
  have counted : uses ((tree.modify parentPath change).erase path) number +
      (decide (left.aclId = number)).toNat = uses (tree.modify parentPath change) number :=
    count_erase foundLeft
  rw [uses_modify change same parentPath] at counted
  rw [← counted, sameAcl]
  by_cases isNumber : number = node.aclId
  · simp [isNumber]
  · simp [isNumber, Ne.symm isNumber]

theorem uses_erase_le (path : Bytes) (number : ℕ) :
    uses (tree.erase path) number ≤ uses tree number :=
  count_erase_le _ tree path

end DataTree

variable {zxid session time : Int64} {before after : StoreState} {undo : Undo}

theorem Effect.aclCounted (effect : Effect zxid session time before after undo)
    (sound : AclCounted before) :
    AclCounted after := by
  cases effect with
  | auths => exact ⟨sound.valid, sound.counted⟩
  | @create request parent nodeAcls auths sameAuths parentFound persistent absent named =>
    refine ⟨sound.valid.intern nodeAcls, fun number nonzero => ?_⟩
    simp only [StoreState.addCreated]
    refine (DataTree.uses_insert _ number).trans ?_
    rw [DataTree.uses_modify _ (by exact fun _ => rfl), ACLMap.usage_intern]
    exact sound.counted_intern nonzero nodeAcls
  | @remove path node parent found childless parentFound =>
    refine ⟨sound.valid.removeUsage _, fun number nonzero => ?_⟩
    have counted := sound.counted number nonzero
    have uses := DataTree.uses_drop (.loseChild zxid (getBaseName path)) (fun _ => rfl)
      (getParentPath path) found number
    simp only [StoreState.dropRemoved]
    rw [ACLMap.usage_removeUsage]
    omega
  | @set path node data found =>
    refine ⟨sound.valid, fun number nonzero => ?_⟩
    have sameAcl : (node.setData zxid time data).aclId = node.aclId := rfl
    exact (DataTree.uses_replace found sameAcl number).trans_le (sound.counted number nonzero)

theorem Effect.aclSound (effect : Effect zxid session time before after undo)
    (sound : AclSound before) :
    AclSound after := by
  have counted := effect.aclCounted sound.toAclCounted
  refine ⟨counted.valid, ?_, counted.counted⟩
  cases effect with
  | auths | set => exact sound.tight
  | create nodeAcls => exact sound.tight.intern sound.valid nodeAcls
  | remove => exact sound.tight.removeUsage _

variable {state : StoreState} {path : Bytes} {node : KeeperNode}

theorem AclCounted.setACL (sound : AclCounted state) (nodeAcls : ACLs)
    (auths : Dict Int64 AuthIDs) : AclCounted (state.replaceAcls auths path node nodeAcls) := by
  refine ⟨sound.valid.intern nodeAcls, fun number nonzero => ?_⟩
  refine (DataTree.uses_insert _ number).trans ?_
  rw [StoreState.replaceAcls, ACLMap.usage_intern]
  exact sound.counted_intern nonzero nodeAcls

theorem AclSound.setACL (sound : AclSound state) (nodeAcls : ACLs) (auths : Dict Int64 AuthIDs) :
    AclSound (state.replaceAcls auths path node nodeAcls) := by
  have counted := @AclCounted.setACL state path node sound.toAclCounted nodeAcls auths
  exact ⟨counted.valid, sound.tight.intern sound.valid nodeAcls, counted.counted⟩

theorem uses_foldl_dropEphemeral (paths : List Bytes) (tree : DataTree) (number : ℕ) :
    DataTree.uses (paths.foldl dropEphemeral tree) number ≤ DataTree.uses tree number := by
  induction paths generalizing tree with
  | nil => exact le_rfl
  | cons path rest ih =>
    refine (ih _).trans ?_
    unfold dropEphemeral
    refine (DataTree.uses_erase_le path number).trans (le_of_eq ?_)
    exact DataTree.uses_modify _ (by exact fun _ => rfl) _ number

theorem AclCounted.checkAuth (sound : AclCounted state) (session : Int64)
    (request : SingleRequest) : ∃ passed, state.checkAuth session request = .ok passed := by
  have checked : ∀ permission path,
      ∃ passed, state.checkAuthAt session permission path = .ok passed := by
    intro permission path
    unfold StoreState.checkAuthAt
    cases found : state.dataTree.lookup path with
    | none => exact ⟨true, rfl⟩
    | some node =>
      rcases sound.resolves found with ⟨acls, resolved⟩
      exact ⟨_, by simp only [resolved]; rfl⟩
  cases request <;> first | exact checked _ _ | exact ⟨true, rfl⟩

theorem AclCounted.checkAuth_multi (sound : AclCounted state) (session : Int64)
    (requests : List SingleRequest) :
    ∃ passed, StoreRequestMultiTxn.checkAuth state session requests = .ok passed := by
  induction requests with
  | nil => exact ⟨true, rfl⟩
  | cons request rest ih =>
    rcases sound.checkAuth session request with ⟨passed, checked⟩
    cases passed with
    | true => simpa [StoreRequestMultiTxn.checkAuth, checked] using ih
    | false => exact ⟨false, by simp [StoreRequestMultiTxn.checkAuth, checked]⟩

end RaftKeeper
