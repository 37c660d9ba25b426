import RaftKeeper.Lib.RelatedMaps
import RaftKeeper.Store.Effect

/-!
# Well-formedness of the data tree

`TreeWellFormed` says that every node but the root is listed by its parent, and every listed name
belongs to a node. Nobody checks paths: `"//x"` has the parent `"/"` and the name `"x"`, as `"/x"`
has. `CreateUndo.aliases` tells such a Create from the others. A failed Multi that removed the root
puts it back as a child of itself; `child` allows this one case.
-/

namespace RaftKeeper

open Finmap List

/-- Parents and children know each other, and paths are written in one way only. -/
structure TreeWellFormed (tree : DataTree) : Prop where
  parent : ∀ {path node}, tree.lookup path = some node → path ≠ rootPath →
    ∃ parent, tree.lookup (getParentPath path) = some parent ∧ getBaseName path ∈ parent.children
  canonical : ∀ {path node}, tree.lookup path = some node → path ≠ rootPath →
    path = childPath (getParentPath path) (getBaseName path) ∧ getBaseName path ≠ []
  child : ∀ {path node name}, tree.lookup path = some node → name ∈ node.children →
    (name ≠ [] ∧ slash ∉ name ∧ (tree.lookup (childPath path name)).isSome) ∨
      (path = rootPath ∧ name = [])

namespace DataTree

variable {tree : DataTree} {key path name other : Bytes} {change : KeeperNode → KeeperNode}

def Names (tree : DataTree) (path name : Bytes) : Prop :=
  ∃ node, tree.lookup path = some node ∧ name ∈ node.children

theorem names_insert {node : KeeperNode} : Names (tree.insert key node) path name ↔
    if path = key then name ∈ node.children else Names tree path name := by
  simp only [Names, lookup_insert_ite]
  split <;> simp

theorem names_erase : Names (tree.erase key) path name ↔ path ≠ key ∧ Names tree path name := by
  simp only [Names, lookup_erase_ite]
  split <;> simp [*]

theorem names_gain (grows : ∀ node, (change node).children = insert other node.children) :
    Names (tree.modify key change) path name ↔
      Names tree path name ∨ path = key ∧ key ∈ tree ∧ name = other := by
  simp only [Names, lookup_modify]
  split
  next isKey =>
    subst isKey
    rw [← lookup_isSome]
    cases tree.lookup path with
    | none | some node => simp [grows, or_comm]
  next notKey => simp [notKey]

theorem names_lose (shrinks : ∀ node, (change node).children = node.children.erase other) :
    Names (tree.modify key change) path name ↔
      Names tree path name ∧ ¬ (path = key ∧ name = other) := by
  simp only [Names, lookup_modify]
  split
  next isKey =>
    subst isKey
    cases tree.lookup path with
    | none | some node => simp [shrinks, and_comm]
  next notKey => simp [notKey]

end DataTree

open DataTree

namespace TreeWellFormed

variable {tree : DataTree} {path : Bytes} {node : KeeperNode}

theorem of_names
    (parent : ∀ path ∈ tree, path ≠ rootPath → Names tree (getParentPath path) (getBaseName path))
    (canonical : ∀ path ∈ tree, path ≠ rootPath →
      path = childPath (getParentPath path) (getBaseName path) ∧ getBaseName path ≠ [])
    (child : ∀ path name, Names tree path name →
      (name ≠ [] ∧ slash ∉ name ∧ childPath path name ∈ tree) ∨ (path = rootPath ∧ name = [])) :
    TreeWellFormed tree where
  parent found := parent _ (mem_of_lookup_eq_some found)
  canonical found := canonical _ (mem_of_lookup_eq_some found)
  child found isMember := (child _ _ ⟨_, found, isMember⟩).imp_left
    fun ⟨named, noSlash, present⟩ => ⟨named, noSlash, lookup_isSome.mpr present⟩

section

variable (wf : TreeWellFormed tree)

include wf

theorem slash_mem (found : tree.lookup path = some node) : slash ∈ path := by
  by_cases isRoot : path = rootPath
  · simp [isRoot, rootPath]
  · rw [(wf.canonical found isRoot).1]
    exact slash_mem_childPath _ _

theorem ne_nil (found : tree.lookup path = some node) : path ≠ [] := by
  rintro rfl
  exact absurd (wf.slash_mem found) (by simp)

variable {name : Bytes}

theorem split_childPath (found : tree.lookup path = some node) (noSlash : slash ∉ name) :
    getParentPath (childPath path name) = path ∧ getBaseName (childPath path name) = name :=
  ⟨getParentPath_childPath (wf.ne_nil found) noSlash, getBaseName_childPath path noSlash⟩

theorem parent_length_lt (found : tree.lookup path = some node) (notRoot : path ≠ rootPath) :
    (getParentPath path).length < path.length := by
  rcases wf.canonical found notRoot with ⟨isChild, named⟩
  have shorter := length_lt_length_childPath (getParentPath path) (getBaseName path) (.inr named)
  rwa [← isChild] at shorter

theorem parent_ne (found : tree.lookup path = some node) (notRoot : path ≠ rootPath) :
    getParentPath path ≠ path := by
  intro same
  have shorter := wf.parent_length_lt found notRoot
  rw [same] at shorter
  exact lt_irrefl _ shorter

theorem only_root {root : KeeperNode} (rootFound : tree.lookup rootPath = some root)
    (childless : root.children = ∅) (found : tree.lookup path = some node) : path = rootPath := by
  -- a shortest path other than the root would have the root as its parent
  induction length : path.length using Nat.strong_induction_on generalizing path node with
  | _ bound ih =>
    by_contra notRoot
    rcases wf.parent found notRoot with ⟨parent, parentFound, listed⟩
    have shorter := wf.parent_length_lt found notRoot
    have isRoot := ih _ (length ▸ shorter) parentFound rfl
    rw [isRoot, rootFound] at parentFound
    cases parentFound
    simp [childless] at listed

theorem gain {parentPath : Bytes} {parent : KeeperNode} {grow : KeeperNode → KeeperNode}
    (parentFound : tree.lookup parentPath = some parent)
    (isChild : path = childPath parentPath name) (named : name ≠ []) (noSlash : slash ∉ name)
    (absent : tree.lookup path = none) (leaf : node.children = ∅)
    (grows : ∀ other, (grow other).children = insert name other.children) :
    TreeWellFormed ((tree.modify parentPath grow).insert path node) := by
  have parentNe : parentPath ≠ path := by
    rintro rfl
    simp [parentFound] at absent
  have split := wf.split_childPath parentFound noSlash
  rw [← isChild] at split
  have present : ∀ other, other ∈ (tree.modify parentPath grow).insert path node ↔
      other = path ∨ other ∈ tree := by
    intro other
    rw [mem_insert, mem_modify]
  have names : ∀ other member, Names ((tree.modify parentPath grow).insert path node) other member ↔
      Names tree other member ∨ (other = parentPath ∧ member = name) := by
    intro other member
    rw [names_insert, names_gain grows]
    have isPresent := mem_of_lookup_eq_some parentFound
    split
    next isNew =>
      subst isNew
      simp [DataTree.Names, absent, leaf, Ne.symm parentNe]
    next => simp [isPresent]
  refine of_names ?_ ?_ ?_
  · intro other isPresent notRoot
    rw [names]
    rcases (present other).mp isPresent with rfl | wasPresent
    · exact .inr split
    · rcases mem_iff.mp wasPresent with ⟨old, found⟩
      exact .inl (wf.parent found notRoot)
  · intro other isPresent notRoot
    rcases (present other).mp isPresent with rfl | wasPresent
    · rw [split.1, split.2]
      exact ⟨isChild, named⟩
    · rcases mem_iff.mp wasPresent with ⟨old, found⟩
      exact wf.canonical found notRoot
  · intro other member isListed
    rcases (names other member).mp isListed with ⟨old, found, isMember⟩ | ⟨rfl, rfl⟩
    · refine (wf.child found isMember).imp_left fun ⟨named, noSlash, isSome⟩ => ?_
      exact ⟨named, noSlash, (present _).mpr (.inr (lookup_isSome.mp isSome))⟩
    · exact .inl ⟨named, noSlash, (present _).mpr (.inl isChild.symm)⟩

theorem lose {shrink : KeeperNode → KeeperNode} (found : tree.lookup path = some node)
    (childless : node.children = ∅)
    (shrinks : ∀ other, (shrink other).children = other.children.erase (getBaseName path)) :
    TreeWellFormed ((tree.modify (getParentPath path) shrink).erase path) := by
  have present : ∀ other, other ∈ (tree.modify (getParentPath path) shrink).erase path ↔
      other ≠ path ∧ other ∈ tree := by
    intro other
    rw [mem_erase, mem_modify]
  have names : ∀ other member,
      Names ((tree.modify (getParentPath path) shrink).erase path) other member ↔
        Names tree other member ∧ ¬ (other = getParentPath path ∧ member = getBaseName path) := by
    intro other member
    rw [names_erase, names_lose shrinks, and_iff_right_of_imp]
    rintro ⟨⟨old, foundOld, isMember⟩, _⟩ rfl
    rw [found] at foundOld
    cases foundOld
    simp [childless] at isMember
  refine of_names ?_ ?_ ?_
  · intro other isPresent notRoot
    rcases (present other).mp isPresent with ⟨distinct, wasPresent⟩
    rcases mem_iff.mp wasPresent with ⟨old, foundOld⟩
    refine (names _ _).mpr ⟨wf.parent foundOld notRoot, ?_⟩
    rintro ⟨sameParent, sameName⟩
    -- without the root nothing would be left
    have isBelow : path ≠ rootPath := by
      rintro rfl
      exact notRoot (wf.only_root found childless foundOld)
    apply distinct
    rw [(wf.canonical foundOld notRoot).1, sameParent, sameName, ← (wf.canonical found isBelow).1]
  · intro other isPresent notRoot
    rcases mem_iff.mp ((present other).mp isPresent).2 with ⟨old, foundOld⟩
    exact wf.canonical foundOld notRoot
  · intro other member isListed
    rcases (names other member).mp isListed with ⟨⟨old, foundOld, isMember⟩, isKept⟩
    refine (wf.child foundOld isMember).imp_left fun ⟨named, noSlash, isSome⟩ => ?_
    refine ⟨named, noSlash, (present _).mpr ⟨fun same => isKept ?_, lookup_isSome.mp isSome⟩⟩
    have split := wf.split_childPath foundOld noSlash
    rw [same] at split
    exact ⟨split.1.symm, split.2.symm⟩

end

/-- The children of a node stay, and the root may get to list the empty name. -/
def KeepsNames (path : Bytes) (old new : KeeperNode) : Prop :=
  old.children ⊆ new.children ∧
    ∀ name ∈ new.children, name ∈ old.children ∨ (path = rootPath ∧ name = [])

theorem KeepsNames.of_eq {old new : KeeperNode} (same : new.children = old.children) :
    KeepsNames path old new :=
  ⟨same ▸ Finset.Subset.refl _, fun _ isMember => .inl (same ▸ isMember)⟩

theorem of_related (wf : TreeWellFormed tree) {after : DataTree}
    (related : Related KeepsNames tree after) : TreeWellFormed after where
  parent := by
    intro path new foundNew notRoot
    rcases related.lookup_twin foundNew with ⟨old, foundOld, _⟩
    rcases wf.parent foundOld notRoot with ⟨above, aboveFound, listed⟩
    rcases related.lookup_some aboveFound with ⟨aboveNew, aboveFoundNew, grown, _⟩
    exact ⟨aboveNew, aboveFoundNew, grown listed⟩
  canonical := by
    intro path new foundNew notRoot
    rcases related.lookup_twin foundNew with ⟨old, foundOld, _⟩
    exact wf.canonical foundOld notRoot
  child := by
    intro path new member foundNew isMember
    rcases related.lookup_twin foundNew with ⟨old, foundOld, _, fromOld⟩
    rcases fromOld member isMember with wasMember | isGhost
    · rw [related.isSome_eq]
      exact wf.child foundOld wasMember
    · exact .inr isGhost

theorem update (wf : TreeWellFormed tree) {updated : KeeperNode}
    (found : tree.lookup path = some node) (sameChildren : updated.children = node.children) :
    TreeWellFormed (tree.insert path updated) :=
  wf.of_related (.replace (fun _ _ => .of_eq rfl) found (.of_eq sameChildren))

end TreeWellFormed

theorem slash_notMem_printInt (value : ℤ) : slash ∉ printInt value := by
  have digits (number : ℕ) : slash ∉ Decimal.decimal number :=
    fun isMember => absurd (Decimal.isDigit_of_mem_decimal _ isMember) (by decide)
  cases value with
  | ofNat number => exact digits number
  | negSucc number =>
    simp only [printInt, mem_cons, not_or]
    exact ⟨by decide, digits _⟩

theorem slash_notMem_sequenceSuffix (seqNum : Int32) : slash ∉ sequenceSuffix seqNum := by
  simp only [sequenceSuffix, mem_append, mem_replicate, not_or, not_and]
  exact ⟨fun _ => by decide, slash_notMem_printInt _⟩

theorem getParentPath_append {path suffix : Bytes} (present : slash ∈ path)
    (absent : slash ∉ suffix) : getParentPath (path ++ suffix) = getParentPath path := by
  rcases exists_lastSlash present with ⟨before, after, rfl, afterAbsent⟩
  have together : slash ∉ after ++ suffix := by simp [afterAbsent, absent]
  rw [append_assoc, cons_append]
  by_cases empty : before = []
  · subst empty
    simp only [nil_append]
    rw [getParentPath_slash_cons together, getParentPath_slash_cons afterAbsent]
  · rw [getParentPath_append_cons empty together, getParentPath_append_cons empty afterAbsent]

namespace CreateRequest

variable {request : CreateRequest}

theorem slash_mem_pathCreated (parent : KeeperNode) (present : slash ∈ request.path) :
    slash ∈ request.pathCreated parent := by
  unfold pathCreated
  split
  · exact mem_append_left _ present
  · exact present

theorem getParentPath_pathCreated (parent : KeeperNode) (present : slash ∈ request.path) :
    getParentPath (request.pathCreated parent) = getParentPath request.path := by
  unfold pathCreated
  split
  · exact getParentPath_append present (slash_notMem_sequenceSuffix _)
  · rfl

end CreateRequest

/-- Whether a Create made a second node under a name of the root. -/
def CreateUndo.aliases (undo : CreateUndo) : Bool :=
  undo.pathCreated = slash :: slash :: undo.childPath

def Undo.aliases : Undo → Bool
  | create undo => undo.aliases
  | nothing | remove _ | set .. => false

variable {session : Int64} {request : CreateRequest} {parent : KeeperNode} {aclId : ℕ}

theorem TreeWellFormed.pathCreated {tree : DataTree} (wf : TreeWellFormed tree)
    (parentFound : tree.lookup (getParentPath request.path) = some parent)
    (noAlias : (request.undo session parent aclId).aliases = false) :
    request.pathCreated parent =
        childPath (getParentPath request.path) (getBaseName (request.pathCreated parent)) ∧
      slash ∉ getBaseName (request.pathCreated parent) := by
  have present : slash ∈ request.path := by
    by_contra absent
    rw [getParentPath_of_noSlash absent] at parentFound
    exact absent (wf.slash_mem parentFound)
  have createdPresent := CreateRequest.slash_mem_pathCreated parent present
  refine ⟨?_, slash_notMem_getBaseName createdPresent⟩
  have splits := eq_childPath_or_doubleSlash createdPresent
  rw [CreateRequest.getParentPath_pathCreated parent present] at splits
  refine splits.resolve_right fun doubleSlash => ?_
  exact of_decide_eq_false noAlias doubleSlash

theorem Effect.treeWellFormed {zxid time : Int64} {before after : StoreState} {undo : Undo}
    (effect : Effect zxid session time before after undo) (wf : TreeWellFormed before.dataTree)
    (noAlias : undo.aliases = false) : TreeWellFormed after.dataTree := by
  cases effect with
  | auths => exact wf
  | create nodeAcls auths sameAuths parentFound _ absent named =>
    rcases wf.pathCreated parentFound noAlias with ⟨isChild, noSlash⟩
    exact wf.gain parentFound isChild named noSlash absent rfl fun _ => rfl
  | remove found childless _ => exact wf.lose found childless fun _ => rfl
  | set data found => exact wf.update found rfl

/-- Whether a request is a Create of two slashes and a name. -/
def SingleRequest.aliases : SingleRequest → Bool
  | create request => request.path.take 2 = [slash, slash] && !(request.path.drop 2).contains slash
  | _ => false

theorem CreateRequest.aliases_of_undo
    (aliases : (request.undo session parent aclId).aliases = true) :
    (SingleRequest.create request).aliases = true := by
  have isAlias : ∃ name, request.pathCreated parent = slash :: slash :: name ∧ slash ∉ name := by
    refine ⟨_, of_decide_eq_true aliases, slash_notMem_getBaseName ?_⟩
    rw [show request.pathCreated parent = _ from of_decide_eq_true aliases]
    exact mem_cons_self
  rcases isAlias with ⟨created, isAlias, noSlash⟩
  have splits : ∃ name, request.path = slash :: slash :: name ∧ slash ∉ name := by
    by_cases sequential : request.isSequential
    · -- the suffix brings no slash, so both stand in the path of the request
      have suffix := slash_notMem_sequenceSuffix parent.stat.cversion
      rw [CreateRequest.pathCreated, if_pos sequential] at isAlias
      cases path : request.path with
      | nil =>
        rw [path, nil_append] at isAlias
        rw [isAlias] at suffix
        exact absurd mem_cons_self suffix
      | cons first rest =>
        rw [path, cons_append] at isAlias
        rcases cons.inj isAlias with ⟨isSlash, isRest⟩
        cases rest with
        | nil =>
          rw [nil_append] at isRest
          rw [isRest] at suffix
          exact absurd mem_cons_self suffix
        | cons second name =>
          rw [cons_append] at isRest
          rcases cons.inj isRest with ⟨isSecond, isName⟩
          refine ⟨name, by rw [isSlash, isSecond], fun isMember => noSlash ?_⟩
          rw [← isName]
          exact mem_append_left _ isMember
    · rw [CreateRequest.pathCreated, if_neg sequential] at isAlias
      exact ⟨created, isAlias, noSlash⟩
  rcases splits with ⟨name, path, nameNoSlash⟩
  simp [SingleRequest.aliases, path, nameNoSlash]

end RaftKeeper
