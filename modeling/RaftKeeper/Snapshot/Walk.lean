import RaftKeeper.Snapshot.Writer
import RaftKeeper.Store.TreeWellFormed

/-!
# The order in which the nodes are written

The synchronous writer visits the nodes in a walk from the root, the asynchronous one dumps the
buckets. The list of nodes has every node of the tree exactly once; for the walk this needs a
well-formed tree, in which the subtrees of two children have no path in common.
-/

namespace RaftKeeper

open Function List

/-- `above` is `path` or one of its ancestors. -/
def Under (above path : Bytes) : Prop := ∃ steps, getParentPath^[steps] path = above

namespace Under

variable {above path : Bytes}

theorem refl (path : Bytes) : Under path path := ⟨0, rfl⟩

theorem length_iterate_le (steps : ℕ) (path : Bytes) :
    (getParentPath^[steps] path).length ≤ path.length := by
  induction steps generalizing path with
  | zero => exact le_rfl
  | succ steps ih =>
    rw [iterate_succ_apply]
    exact le_trans (ih _) (length_getParentPath_le path)

theorem length_le (under : Under above path) : above.length ≤ path.length := by
  rcases under with ⟨steps, rfl⟩
  exact length_iterate_le steps path

theorem parent (under : Under above path) : Under (getParentPath above) path := by
  rcases under with ⟨steps, rfl⟩
  exact ⟨steps + 1, iterate_succ_apply' _ _ _⟩

theorem siblings_eq {left right : Bytes} (underLeft : Under left path)
    (underRight : Under right path) (sameParent : getParentPath left = getParentPath right)
    (properLeft : (getParentPath left).length < left.length)
    (properRight : (getParentPath right).length < right.length) : left = right := by
  rcases underLeft with ⟨leftSteps, reachesLeft⟩
  rcases underRight with ⟨rightSteps, reachesRight⟩
  wlog fewer : leftSteps ≤ rightSteps generalizing left right leftSteps rightSteps
  · exact (this sameParent.symm properRight properLeft _ reachesRight _ reachesLeft
      (Nat.le_of_not_le fewer)).symm
  rcases fewer.eq_or_lt with same | fewer
  · rw [← reachesLeft, ← reachesRight, same]
  · -- the right one would be an ancestor of the parent
    have later : rightSteps = (rightSteps - leftSteps - 1) + 1 + leftSteps := by omega
    rw [later, iterate_add_apply, reachesLeft, iterate_succ_apply, sameParent] at reachesRight
    have notLonger := length_iterate_le (rightSteps - leftSteps - 1) (getParentPath right)
    rw [reachesRight] at notLonger
    omega

end Under

/-- A well-formed tree with a root. -/
structure TreeRooted (tree : DataTree) : Prop extends TreeWellFormed tree where
  root : ∃ root, tree.lookup rootPath = some root ∧ [] ∉ root.children

namespace TreeRooted

variable {tree : DataTree} {path : Bytes} {node : KeeperNode}

theorem listed_child (rooted : TreeRooted tree) (found : tree.lookup path = some node)
    {name : Bytes} (listed : name ∈ node.children) :
    (∃ child, tree.lookup (childPath path name) = some child) ∧
    getParentPath (childPath path name) = path ∧ getBaseName (childPath path name) = name ∧
    path.length < (childPath path name).length := by
  rcases rooted.child found listed with ⟨named, noSlash, present⟩ | ⟨rfl, rfl⟩
  · have split := rooted.toTreeWellFormed.split_childPath found noSlash
    exact ⟨Option.isSome_iff_exists.mp present, split.1, split.2,
      length_lt_length_childPath path name (.inr named)⟩
  · rcases rooted.root with ⟨root, rootFound, unlisted⟩
    rw [found] at rootFound
    cases rootFound
    exact absurd listed unlisted

theorem ancestor (rooted : TreeRooted tree) (found : tree.lookup path = some node) (steps : ℕ) :
    ∃ other, tree.lookup (getParentPath^[steps] path) = some other := by
  induction steps with
  | zero => exact ⟨node, found⟩
  | succ steps ih =>
    rcases ih with ⟨other, foundOther⟩
    rw [iterate_succ_apply']
    by_cases isRoot : getParentPath^[steps] path = rootPath
    · rw [isRoot, getParentPath_rootPath, ← isRoot]
      exact ⟨other, foundOther⟩
    · rcases rooted.parent foundOther isRoot with ⟨parent, foundParent, _⟩
      exact ⟨parent, foundParent⟩

theorem under_cases (rooted : TreeRooted tree) {above : Bytes} {top : KeeperNode}
    (foundTop : tree.lookup above = some top) (found : tree.lookup path = some node)
    (under : Under above path) :
    path = above ∨ ∃ name ∈ top.children, Under (childPath above name) path := by
  rcases under with ⟨steps, reaches⟩
  induction steps with
  | zero => exact .inl reaches
  | succ steps ih =>
    rw [iterate_succ_apply'] at reaches
    rcases rooted.ancestor found steps with ⟨child, foundChild⟩
    by_cases isRoot : getParentPath^[steps] path = rootPath
    · rw [isRoot, getParentPath_rootPath] at reaches
      exact ih (isRoot.trans reaches)
    · right
      rcases rooted.parent foundChild isRoot with ⟨parent, foundParent, listed⟩
      have canonical := (rooted.canonical foundChild isRoot).1
      rw [reaches, foundTop] at foundParent
      cases foundParent
      rw [reaches] at canonical
      exact ⟨_, listed, steps, canonical⟩

theorem under_root (rooted : TreeRooted tree) (found : tree.lookup path = some node) :
    Under rootPath path := by
  induction length : path.length using Nat.strong_induction_on generalizing path node with
  | _ bound ih =>
    by_cases isRoot : path = rootPath
    · rw [isRoot]
      exact .refl _
    · rcases rooted.parent found isRoot with ⟨parent, foundParent, _⟩
      have shorter := rooted.toTreeWellFormed.parent_length_lt found isRoot
      rcases ih _ (length ▸ shorter) foundParent rfl with ⟨steps, reaches⟩
      exact ⟨steps + 1, by rw [iterate_succ_apply, reaches]⟩

end TreeRooted

/-- Every node at or below the path is visited once. -/
structure ListsUnder (tree : DataTree) (above : Bytes) (visited : List (Bytes × KeeperNode)) :
    Prop where
  nodup : (visited.map Prod.fst).Nodup
  mem_iff : ∀ path node, (path, node) ∈ visited ↔ tree.lookup path = some node ∧ Under above path

theorem length_le_of_lookup {tree : DataTree} {path : Bytes} {node : KeeperNode}
    (found : tree.lookup path = some node) : path.length ≤ tree.keys.sup length :=
  Finset.le_sup (f := length) (Finmap.mem_keys.mpr (Finmap.mem_of_lookup_eq_some found))

section

variable {tree : DataTree} (settings : SnapshotSettings) (order : SnapshotOrder) {path : Bytes}
  {names : List Bytes} {visited : Bytes → List (Bytes × KeeperNode)}

theorem foldlM_children {fuel : ℕ} (walks : ∀ name ∈ names, ∀ writer,
      serializeNode settings order tree fuel writer (childPath path name) =
        some ((visited name).foldl (DataWriter.append settings) writer)) (writer : DataWriter) :
    names.foldlM
        (fun current child => serializeNode settings order tree fuel current (childPath path child))
        writer =
      some ((names.flatMap visited).foldl (DataWriter.append settings) writer) := by
  induction names generalizing writer with
  | nil => rfl
  | cons name rest ih =>
    rw [foldlM_cons, walks name mem_cons_self, flatMap_cons, foldl_append]
    exact ih (fun other isMember => walks other (mem_cons_of_mem _ isMember)) _

variable {node : KeeperNode}

theorem TreeRooted.listsUnder_cons (rooted : TreeRooted tree)
    (found : tree.lookup path = some node) (nodup : names.Nodup)
    (listed : ∀ name, name ∈ names ↔ name ∈ node.children)
    (lists : ∀ name ∈ names, ListsUnder tree (childPath path name) (visited name)) :
    ListsUnder tree path ((path, node) :: names.flatMap visited) := by
  have child := fun name isMember => rooted.listed_child found ((listed name).mp isMember)
  constructor
  · rw [map_cons, nodup_cons, map_flatMap, nodup_flatMap]
    refine ⟨?_, fun name isMember => (lists name isMember).nodup, ?_⟩
    · intro isMember
      rcases mem_flatMap.mp isMember with ⟨name, isName, inSubtree⟩
      rcases mem_map.mp inSubtree with ⟨⟨other, _⟩, isEntry, rfl⟩
      have notLonger := (((lists name isName).mem_iff _ _).mp isEntry).2.length_le
      have longer := (child name isName).2.2.2
      simp only at notLonger longer
      omega
    · refine Pairwise.imp_of_mem ?_ nodup
      intro left right isLeft isRight distinct other inLeft inRight
      rcases mem_map.mp inLeft with ⟨⟨_, leftNode⟩, leftEntry, rfl⟩
      rcases mem_map.mp inRight with ⟨⟨_, rightNode⟩, rightEntry, rfl⟩
      have underLeft := (((lists left isLeft).mem_iff _ _).mp leftEntry).2
      have underRight := (((lists right isRight).mem_iff _ _).mp rightEntry).2
      rcases child left isLeft with ⟨_, parentLeft, baseLeft, longerLeft⟩
      rcases child right isRight with ⟨_, parentRight, baseRight, longerRight⟩
      have same := underLeft.siblings_eq underRight (parentLeft.trans parentRight.symm)
        (by rwa [parentLeft]) (by rwa [parentRight])
      exact distinct (by rw [← baseLeft, ← baseRight, same])
  · intro other otherNode
    rw [mem_cons, mem_flatMap, Prod.mk.injEq]
    constructor
    · rintro (⟨rfl, rfl⟩ | ⟨name, isName, isEntry⟩)
      · exact ⟨found, .refl _⟩
      · rcases ((lists name isName).mem_iff _ _).mp isEntry with ⟨foundOther, under⟩
        have above := under.parent
        rw [(child name isName).2.1] at above
        exact ⟨foundOther, above⟩
    · rintro ⟨foundOther, under⟩
      rcases rooted.under_cases found foundOther under with rfl | ⟨name, isName, underChild⟩
      · rw [found] at foundOther
        cases foundOther
        exact .inl ⟨rfl, rfl⟩
      · have isMember := (listed name).mpr isName
        exact .inr ⟨name, isMember, ((lists name isMember).mem_iff _ _).mpr
          ⟨foundOther, underChild⟩⟩

theorem TreeRooted.serializeNode_walks (rooted : TreeRooted tree) (fuel : ℕ)
    (found : tree.lookup path = some node)
    (enough : tree.keys.sup length < fuel + path.length) :
    ∃ visited, ListsUnder tree path visited ∧ ∀ writer,
      serializeNode settings order tree fuel writer path =
        some (visited.foldl (DataWriter.append settings) writer) := by
  induction fuel generalizing path node with
  | zero =>
    have bound := length_le_of_lookup found
    omega
  | succ fuel ih =>
    have subtrees : ∀ name, name ∈ order.children.list path node.children →
        ∃ visited, ListsUnder tree (childPath path name) visited ∧ ∀ writer,
          serializeNode settings order tree fuel writer (childPath path name) =
            some (visited.foldl (DataWriter.append settings) writer) := by
      intro name isMember
      rcases rooted.listed_child found (order.children.mem_list.mp isMember) with
        ⟨⟨child, foundChild⟩, _, _, longer⟩
      exact ih foundChild (by omega)
    choose! visited lists walks using subtrees
    refine ⟨_, rooted.listsUnder_cons found (order.children.nodup_list path node.children)
      (fun _ => order.children.mem_list) lists, fun writer => ?_⟩
    rw [serializeNode, found]
    exact foldlM_children settings order walks _

theorem TreeRooted.serializeDataTree_lists (rooted : TreeRooted tree) :
    ∃ nodes, tree.Lists nodes ∧ serializeDataTree settings order tree =
      (nodes.foldl (DataWriter.append settings) {}).finish := by
  rcases rooted.root with ⟨root, rootFound, _⟩
  have enough : tree.keys.sup length < walkFuel tree + rootPath.length := by
    rw [walkFuel]
    omega
  rcases rooted.serializeNode_walks settings order (walkFuel tree) rootFound enough with
    ⟨visited, lists, walks⟩
  refine ⟨visited, ⟨lists.nodup, fun path node => ?_⟩, ?_⟩
  · rw [lists.mem_iff]
    exact ⟨And.left, fun found => ⟨found, rooted.under_root found⟩⟩
  · rw [serializeDataTree, walks]
    rfl

end

theorem dumpDataTree_lists (platform : Platform) (order : SnapshotOrder) (tree : DataTree) :
    ∃ nodes, tree.Lists nodes ∧ dumpDataTree platform order tree =
      nodes.map fun entry => (entry.1, entry.2.cloneWithoutChildren) := by
  refine ⟨(range dataTreeBucketNum).flatMap fun bucket =>
    order.bucket.entriesOf bucket tree
      (tree.keys.filter fun path => platform.getBucketIndex path = bucket), ⟨?_, ?_⟩, ?_⟩
  · rw [map_flatMap, nodup_flatMap]
    refine ⟨fun bucket _ => (order.bucket.nodup_list bucket _).sublist
      (order.bucket.keys_entriesOf_sublist bucket tree _), ?_⟩
    refine Pairwise.imp ?_ nodup_range
    intro left right distinct path inLeft inRight
    rcases mem_map.mp inLeft with ⟨⟨_, leftNode⟩, leftEntry, rfl⟩
    rcases mem_map.mp inRight with ⟨⟨_, rightNode⟩, rightEntry, rfl⟩
    have leftBucket := (order.bucket.mem_entriesOf.mp leftEntry).1
    have rightBucket := (order.bucket.mem_entriesOf.mp rightEntry).1
    simp only [Finset.mem_filter] at leftBucket rightBucket
    exact distinct (leftBucket.2.symm.trans rightBucket.2)
  · intro path node
    simp only [mem_flatMap, mem_range, Enumeration.mem_entriesOf, Finset.mem_filter,
      Finmap.mem_keys]
    constructor
    · rintro ⟨_, _, _, found⟩
      exact found
    · intro found
      exact ⟨platform.getBucketIndex path, Nat.mod_lt _ (by decide),
        ⟨Finmap.mem_of_lookup_eq_some found, rfl⟩, found⟩
  · rw [map_flatMap]
    rfl

end RaftKeeper
