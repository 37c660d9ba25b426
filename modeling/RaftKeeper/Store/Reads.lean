import RaftKeeper.Store.TreeInvariant

/-!
# What is read of a node

A List with a filter looks the children of a node up under the path of the node, a slash and the
name; for the root these are paths with two slashes. GetACL and SetACL report the `Stat` of a node
as it is kept, the other operations convert it.
-/

namespace RaftKeeper

open KeeperStore SingleRequest

/-- The filter of a FilteredList. -/
inductive ListRequestType
  | all
  | persistentOnly
  | ephemeralOnly
deriving DecidableEq

namespace ListRequestType

def code : ListRequestType → UInt8
  | all => 0
  | persistentOnly => 1
  | ephemeralOnly => 2

def selects : ListRequestType → KeeperNode → Bool
  | all, _ => true
  | persistentOnly, node => node.stat.ephemeralOwner = 0
  | ephemeralOnly, node => node.stat.ephemeralOwner ≠ 0

theorem code_eq_zero_iff (type : ListRequestType) : type.code = 0 ↔ type = all := by
  cases type <;> decide

theorem showsNode_code {type : ListRequestType} (notAll : type ≠ all) (node : KeeperNode) :
    showsNode type.code node = type.selects node := by
  cases type with
  | all => exact absurd rfl notAll
  | persistentOnly | ephemeralOnly => simp [showsNode, code, selects]

end ListRequestType

def DataTree.selected (tree : DataTree) (path : Bytes) (node : KeeperNode)
    (type : ListRequestType) : Finset Bytes :=
  node.children.filter fun name => (tree.lookup (childPath path name)).any type.selects

theorem TreeWellFormed.lookup_listedChildPath {tree : DataTree} {path name : Bytes}
    {node : KeeperNode} (wf : TreeWellFormed tree) (found : tree.lookup path = some node)
    (listed : name ∈ node.children) :
    tree.lookup (listedChildPath path name) =
      if path = rootPath then none else tree.lookup (childPath path name) := by
  by_cases isRoot : path = rootPath
  · have noSlash : slash ∉ name := by
      rcases wf.child found listed with ⟨_, noSlash, _⟩ | ⟨_, rfl⟩
      · exact noSlash
      · exact List.not_mem_nil
    rw [if_pos isRoot, listedChildPath, isRoot]
    cases isThere : tree.lookup (rootPath ++ slash :: name) with
    | none => rfl
    | some other =>
      -- Such a node would be found under its parent and its name, with one slash less.
      have canonical := (wf.canonical isThere (by simp [rootPath])).1
      rw [getParentPath_append_cons (by simp [rootPath]) noSlash,
        getBaseName_append_cons rootPath noSlash, childPath_rootPath] at canonical
      simpa [rootPath] using congrArg List.length canonical
  · rw [if_neg isRoot, listedChildPath, childPath_of_ne isRoot]

namespace StoreState

variable {state : StoreState} {path : Bytes} {node : KeeperNode}

theorem selected_all (wf : TreeWellFormed state.dataTree)
    (found : state.dataTree.lookup path = some node) :
    state.dataTree.selected path node .all = node.children := by
  refine Finset.filter_true_of_mem fun name listed => ?_
  have isThere : (state.dataTree.lookup (childPath path name)).isSome := by
    rcases wf.child found listed with ⟨_, _, isThere⟩ | ⟨rfl, rfl⟩
    · exact isThere
    · rw [childPath_rootPath]
      exact Option.isSome_of_eq_some found
  rcases Option.isSome_iff_exists.mp isThere with ⟨child, isChild⟩
  rw [isChild]
  rfl

/-- A filter that leaves anything out shows the right children of every node but the root. -/
theorem list_filtered (wf : TreeWellFormed state.dataTree)
    (found : state.dataTree.lookup path = some node) (type : ListRequestType) :
    state.list (.filtered type.code) path =
      if type = .all ∨ path ≠ rootPath ∨ node.children = ∅ then
        .returned { payload := .list (state.dataTree.selected path node type) node.statForResponse }
      else .crashed := by
  simp only [list, found, if_neg (wf.ne_nil found), type.code_eq_zero_iff]
  by_cases isAll : type = .all
  · rw [if_pos isAll, if_pos (.inl isAll), isAll, selected_all wf found]
  · have shows := funext (ListRequestType.showsNode_code isAll)
    rw [if_neg isAll, shows]
    by_cases isRoot : path = rootPath
    · have missing : ∀ name ∈ node.children,
          state.dataTree.lookup (listedChildPath path name) = none := by
        intro name listed
        rw [wf.lookup_listedChildPath found listed, if_pos isRoot]
      rcases node.children.eq_empty_or_nonempty with childless | ⟨name, listed⟩
      · simp [DataTree.selected, childless]
      · have notFound : ¬ ∀ child ∈ node.children,
            (state.dataTree.lookup (listedChildPath path child)).isSome := by
          intro allFound
          simpa [missing name listed] using allFound name listed
        rw [if_neg notFound, if_neg]
        simp [isAll, isRoot, Finset.ne_empty_of_mem listed]
    · have present : ∀ name ∈ node.children,
          state.dataTree.lookup (listedChildPath path name) =
            state.dataTree.lookup (childPath path name) := by
        intro name listed
        rw [wf.lookup_listedChildPath found listed, if_neg isRoot]
      have allFound : ∀ name ∈ node.children,
          (state.dataTree.lookup (listedChildPath path name)).isSome := by
        intro name listed
        rw [present name listed]
        rcases wf.child found listed with ⟨_, _, isThere⟩ | ⟨isRoot', _⟩
        · exact isThere
        · exact absurd isRoot' isRoot
      have sameNames : (node.children.filter fun name =>
          (state.dataTree.lookup (listedChildPath path name)).any type.selects) =
          state.dataTree.selected path node type :=
        Finset.filter_congr fun name listed => by rw [present name listed]
      rw [if_pos allFound, if_pos (.inr (.inl isRoot)), sameNames]

def ephemeralChildRun : List Call :=
  [.sampleSession, .sample 1 (.single (.create { path := ascii "/x" })),
    .sample 1 (.single (.create { path := ascii "/x/e", isEphemeral := true })),
    .sample 1 (.single (.create { path := ascii "/x/p" }))]

/-- A node with an ephemeral child and another one. -/
theorem list_filtered_ephemeralChild :
    ∃ store, ReachableBy (next .sample) (createsNoAlias .sample) KeeperStore.sample store ∧
      ∃ node : KeeperNode, store.list (.filtered ListRequestType.persistentOnly.code) (ascii "/x") =
          .returned { payload := .list {ascii "p"} node.statForResponse } ∧
        store.list (.filtered ListRequestType.ephemeralOnly.code) (ascii "/x") =
          .returned { payload := .list {ascii "e"} node.statForResponse } := by
  refine exists_reached_of (fun store : KeeperStore =>
      ∃ node, store.dataTree.lookup (ascii "/x") = some node ∧
      store.dataTree.selected (ascii "/x") node .persistentOnly = {ascii "p"} ∧
      store.dataTree.selected (ascii "/x") node .ephemeralOnly = {ascii "e"})
    ephemeralChildRun (by decide +kernel) ?_
  rintro store reached ⟨node, found, persistent, ephemeral⟩
  have wf := (reachable_treeSound started_sample reached).wellFormed
  refine ⟨node, ?_, ?_⟩
  · rw [list_filtered wf found, if_pos (.inr (.inl (by decide))), persistent]
  · rw [list_filtered wf found, if_pos (.inr (.inl (by decide))), ephemeral]

/-- A filtered List of the root in a store that has just started. -/
theorem list_filtered_root :
    sample.list (.filtered ListRequestType.persistentOnly.code) rootPath = .crashed := by
  have found : sample.dataTree.lookup rootPath =
      some { children := {ascii "zookeeper"} } := by decide +kernel
  have missing : sample.dataTree.lookup
      (listedChildPath rootPath (ascii "zookeeper")) = none := by decide +kernel
  have notEmpty : rootPath ≠ [] := by simp [rootPath]
  simp [list, found, missing, notEmpty, ListRequestType.code]

end StoreState

/-- The stat in a response, if it has one. -/
def Response.stat? (response : Response) : Option Stat :=
  if response.error = .zok then
    match response.payload with
    | .exists stat | .get _ stat | .set stat | .list _ stat | .setACL stat | .getACL _ stat =>
      some stat
    | _ => none
  else none

/-- The stat that the operation is to report, given the one before it. -/
def SingleRequest.statAfter (zxid time : Int64) (stat : Stat) : SingleRequest → Option Stat
  | .exists .. | .get .. | .list .. | .getACL _ => some stat
  | .set request =>
    some { stat with
      version := stat.version + 1, mzxid := zxid, mtime := time
      dataLength := Int32.ofNat request.data.length }
  | .setACL _ => some { stat with aversion := stat.aversion + 1 }
  | _ => none

theorem KeeperNode.statForResponse_eq_iff (node : KeeperNode) :
    node.statForResponse = node.stat ↔
      node.stat.cversion = node.stat.numChildren ∧
        node.stat.numChildren = Int32.ofNat node.children.card := by
  have doubled : node.stat.cversion * 2 - node.stat.numChildren = node.stat.cversion ↔
      node.stat.cversion = node.stat.numChildren := by grind
  rw [← doubled]
  constructor
  · intro same
    exact ⟨congrArg Stat.cversion same, (congrArg Stat.numChildren same).symm⟩
  · rintro ⟨sameVersion, sameNumber⟩
    rw [statForResponse, sameVersion, ← sameNumber]

namespace StoreState

variable {state : StoreState} {path : Bytes} {node : KeeperNode}

/-- The operations report one stat exactly for the nodes whose own one is the reported one. -/
theorem reported_stats_iff (platform : Platform) (zxid session time : Int64)
    (found : state.dataTree.lookup path = some node) :
    (∀ request after response undo stat expected, request.getPath = path →
      state.process platform zxid session time request = .returned (after, response, undo) →
      response.stat? = some stat →
      request.statAfter zxid time node.statForResponse = some expected → stat = expected) ↔
    node.stat.cversion = node.stat.numChildren ∧
      node.stat.numChildren = Int32.ofNat node.children.card := by
  rw [← node.statForResponse_eq_iff]
  constructor
  · intro agree
    have answer : (state.setACL session { path := path, acls := [] }).2 =
        { payload := .setACL { node.stat with aversion := node.stat.aversion + 1 } } := by
      simp [setACL, found, fixupACL]
    have reported := agree (.setACL { path := path, acls := [] }) _
      (state.setACL session { path := path, acls := [] }).2 _
      { node.stat with aversion := node.stat.aversion + 1 } _ rfl rfl (by rw [answer]; rfl) rfl
    have sameVersion : node.stat.cversion = node.stat.cversion * 2 - node.stat.numChildren :=
      congrArg Stat.cversion reported
    have sameNumber : node.stat.numChildren = Int32.ofNat node.children.card :=
      congrArg Stat.numChildren reported
    rw [KeeperNode.statForResponse, ← sameVersion, ← sameNumber]
  · rintro same request after response undo stat expected rfl processed reported isExpected
    cases request with
    | «exists» =>
      rw [getPath] at found
      cases isExpected
      cases processed
      simpa [StoreState.exists, found, Response.stat?] using reported.symm
    | get =>
      rw [getPath] at found
      cases isExpected
      cases processed
      simpa [get, found, Response.stat?] using reported.symm
    | list kind _ =>
      rw [getPath] at found
      cases isExpected
      simp only [process, list, found] at processed
      split at processed
      · cases processed
      · cases kind with
        | simple =>
          cases processed
          cases reported
        | full =>
          cases processed
          cases reported
          rfl
        | filtered =>
          dsimp only at processed
          split_ifs at processed
          all_goals
            cases processed
          all_goals
            cases reported
            rfl
    | set =>
      rw [getPath] at found
      cases isExpected
      simp only [process, set, found] at processed
      split at processed
      · cases processed
        cases reported
        rfl
      · cases processed
        cases reported
    | setACL =>
      rw [getPath] at found
      cases isExpected
      simp only [process, setACL, found] at processed
      split at processed
      · cases processed
        cases reported
      · split at processed
        · cases processed
          cases reported
        · cases processed
          cases reported
          rw [same]
    | getACL =>
      rw [getPath] at found
      cases isExpected
      simp only [process, getACL, found] at processed
      split at processed
      · cases processed
      · cases processed
        cases reported
        exact same.symm
    | _ => cases isExpected

/-- A node with two children. -/
theorem reported_stats_parent :
    ∃ store, ReachableBy (next .sample) (fun _ _ => True) KeeperStore.sample store ∧
      ∃ node, store.dataTree.lookup (ascii "/x") = some node ∧ node.children.card = 2 ∧
        ∀ request after response undo stat expected, request.getPath = ascii "/x" →
          store.process .sample 5 1 0 request = .returned (after, response, undo) →
          response.stat? = some stat →
          request.statAfter 5 0 node.statForResponse = some expected → stat = expected := by
  refine exists_reached_of (fun store : KeeperStore =>
      ∃ node, store.dataTree.lookup (ascii "/x") = some node ∧
      node.children.card = 2 ∧ node.stat.cversion = node.stat.numChildren ∧
      node.stat.numChildren = Int32.ofNat node.children.card)
    ephemeralChildRun (by decide +kernel) ?_
  rintro store _ ⟨node, found, two, sameVersion, sameNumber⟩
  exact ⟨node, found, two,
    (reported_stats_iff .sample 5 1 0 found).mpr ⟨sameVersion, sameNumber⟩⟩

/-- A node with a child that was created and removed again, for Exists and for GetACL. -/
theorem reported_stats_differ :
    ∃ store, runFrom (KeeperStore.next .sample) .sample
        [.sampleSession, .sample 1 (.single (.create { path := ascii "/x", acls := [] })),
          .sample 1 (.single (.create { path := ascii "/x/a", acls := [] })),
          .sample 1 (.single (.remove { path := ascii "/x/a" }))] = some store ∧
      (store.exists (ascii "/x")).stat?.map (·.cversion) = some 2 ∧
      ∃ response, store.getACL (ascii "/x") = .returned response ∧
        response.stat?.map (·.cversion) = some 1 := by
  refine ⟨_, rfl, ?_, _, rfl, ?_⟩
  · decide +kernel
  · decide +kernel

end StoreState

end RaftKeeper
