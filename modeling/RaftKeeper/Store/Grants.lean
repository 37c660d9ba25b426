import RaftKeeper.Store.History

/-!
# The lists that nodes are given

A node has the access control list that the last Create or SetACL for it asked for, with
the identities of the session put in. The table shares the lists between nodes, so this has
to be shown of every operation: none of them changes the list of a node that it does not
name.
-/

namespace RaftKeeper

open Finmap Option StoreState

def StoreState.aclsAt (state : StoreState) (path : Bytes) : Option ACLs :=
  (state.dataTree.lookup path).bind fun node => state.aclMap.convertNumber node.aclId

/-- The list that a change gives to a node, for a session with these identities. -/
def Change.grant (auths : AuthIDs) : Change → Option (Bytes × ACLs)
  | created request path =>
    (fixupACL request.acls auths).map fun acls => (path, ACLMap.effective acls)
  | written _ | removed _ | expired _ => none

section

variable {state before after : StoreState} {path other : Bytes} {node removed : KeeperNode}

theorem StoreState.aclsAt_congr
    (sameNumber : (after.dataTree.lookup path).map (·.aclId) =
      (before.dataTree.lookup path).map (·.aclId))
    (sameList : ∀ node, before.dataTree.lookup path = some node →
      after.aclMap.convertNumber node.aclId = before.aclMap.convertNumber node.aclId) :
    after.aclsAt path = before.aclsAt path := by
  cases found : before.dataTree.lookup path with
  | none =>
    rw [found, map_none, map_eq_none_iff] at sameNumber
    rw [aclsAt, aclsAt, found, sameNumber]
    rfl
  | some node =>
    rw [found, map_some] at sameNumber
    rcases map_eq_some_iff.mp sameNumber with ⟨later, foundLater, isNumber⟩
    rw [aclsAt, aclsAt, found, foundLater, bind_some, bind_some, isNumber]
    exact sameList node found

namespace AclCounted

theorem convertNumber_intern (sound : AclCounted state)
    (found : state.dataTree.lookup path = some node) (acls : ACLs) :
    (state.aclMap.intern acls).2.convertNumber node.aclId =
      state.aclMap.convertNumber node.aclId := by
  by_cases isWorld : node.aclId = 0
  · rw [isWorld, ACLMap.convertNumber_zero, ACLMap.convertNumber_zero]
  · rcases sound.resolves found with ⟨known, resolved⟩
    rw [resolved]
    rw [ACLMap.convertNumber_of_ne isWorld] at resolved ⊢
    exact sound.valid.intern_lookup acls resolved

theorem usage_ne_one (sound : AclCounted state) (isOther : other ≠ path)
    (removedFound : state.dataTree.lookup path = some removed)
    (found : state.dataTree.lookup other = some node) (isWorld : node.aclId ≠ 0)
    (shares : node.aclId = removed.aclId) : state.aclMap.usage removed.aclId ≠ 1 := by
  have counted := sound.counted removed.aclId (shares ▸ isWorld)
  have stillFound : (state.dataTree.erase path).lookup other = some node := by
    rw [lookup_erase_ite, if_neg isOther, found]
  have counts : DataTree.uses (state.dataTree.erase path) removed.aclId + 1 =
      DataTree.uses state.dataTree removed.aclId := by
    have isUse : (decide (removed.aclId = removed.aclId)).toNat = 1 := by simp
    rw [DataTree.uses, DataTree.uses, ← count_erase removedFound, isUse]
  have remains : 0 < DataTree.uses (state.dataTree.erase path) removed.aclId :=
    count_pos_of_lookup stillFound (by simp [shares])
  omega

theorem convertNumber_removeUsage (sound : AclCounted state) (isOther : other ≠ path)
    (removedFound : state.dataTree.lookup path = some removed)
    (found : state.dataTree.lookup other = some node) :
    (state.aclMap.removeUsage removed.aclId).convertNumber node.aclId =
      state.aclMap.convertNumber node.aclId := by
  by_cases isWorld : node.aclId = 0
  · rw [isWorld, ACLMap.convertNumber_zero, ACLMap.convertNumber_zero]
  · rw [ACLMap.convertNumber_of_ne isWorld, ACLMap.convertNumber_of_ne isWorld]
    by_cases shares : node.aclId = removed.aclId
    · have notLast := sound.usage_ne_one isOther removedFound found isWorld shares
      rw [sound.valid.removeUsage_numToAcl notLast]
    · exact ACLMap.removeUsage_numToAcl_of_ne _ shares

end AclCounted

end

section

variable {platform : Platform} {zxid session time : Int64} {state before after : StoreState}
  {response : Response} {undo : Undo} {path : Bytes}

/-- What an operation leaves of the lists, given the list it has granted. -/
def Grants (grant : Option (Bytes × ACLs)) (before after : StoreState) : Prop :=
  ∀ path, path ∈ after.dataTree →
    after.aclsAt path = match grant with
      | some (own, acls) => if path = own then some acls else before.aclsAt path
      | none => before.aclsAt path

variable {request : SingleRequest} {change : Option Change}

theorem Operation.grants (operation : Operation zxid session time before request after change)
    (sound : AclCounted before) (notSetACL : ∀ own, request ≠ .setACL own) :
    Grants (change.bind (Change.grant (before.authsOf session))) before after := by
  intro path present
  cases operation with
  | nothing => rfl
  | setACL isSetACL => exact absurd isSetACL (notSetACL _)
  | @create own parent isCreate nodeAcls fixed auths sameAuths parentFound persistent absent
    named =>
    simp only [bind_some, Change.grant, fixed, map_some]
    split
    next isOwn =>
      rw [isOwn, aclsAt, addCreated, lookup_insert, bind_some]
      exact sound.valid.convertNumber_intern nodeAcls
    next isOther =>
      refine aclsAt_congr ?_ fun node found =>
        sound.convertNumber_intern found nodeAcls
      rw [addCreated, lookup_insert_ite, if_neg isOther, lookup_modify]
      split
      next isParent =>
        rw [isParent, map_map]
        rfl
      next => rfl
  | @remove own node parent isRemove found expected childless parentFound =>
    rw [dropRemoved, mem_erase] at present
    refine aclsAt_congr ?_ fun other otherFound =>
      sound.convertNumber_removeUsage present.1 found otherFound
    rw [dropRemoved, lookup_erase_ite, if_neg present.1, lookup_modify]
    split
    next isParent =>
      rw [isParent, map_map]
      rfl
    next => rfl
  | @set own node isSet found expected =>
    refine aclsAt_congr ?_ fun _ _ => rfl
    rw [lookup_insert_ite]
    split
    next isOwn =>
      rw [isOwn, found]
      rfl
    next => rfl

theorem Operation.aclCounted (operation : Operation zxid session time before request after change)
    (sound : AclCounted before) : AclCounted after := by
  rcases operation.effect_cases with
    ⟨undo, effect⟩ | ⟨auths, rfl⟩ | ⟨own, node, nodeAcls, auths, _, _, found, rfl⟩
  · exact effect.aclCounted sound
  · exact ⟨sound.valid, sound.counted⟩
  · exact sound.setACL nodeAcls auths

end

end RaftKeeper
