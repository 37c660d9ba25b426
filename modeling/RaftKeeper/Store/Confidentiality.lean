import RaftKeeper.Lib.RelatedMaps
import RaftKeeper.Lib.Run
import RaftKeeper.Store.ProcessRequest

/-!
# Confidentiality of data

Two stores are alike for a set of hidden paths when they differ in the data of the nodes there only.
A request that is not a Get of a hidden path runs the same way on both, because no other operation
looks at the data of a node. A Get of a node that the session may not read is refused before
anything is executed, also inside a Multi.
-/

namespace RaftKeeper

/-- The same node, but for its data where they are hidden. -/
def KeeperNode.Twin (hidden : Prop) (node twin : KeeperNode) : Prop :=
  ∃ data, twin = { node with data := data } ∧ (hidden ∨ data = node.data)

/-- Trees that differ in nothing but the data at hidden paths. -/
def DataTree.Alike (hidden : Bytes → Prop) (tree other : DataTree) : Prop :=
  Finmap.Related (fun path => KeeperNode.Twin (hidden path)) tree other

def StoreState.Alike (hidden : Bytes → Prop) (state other : StoreState) : Prop :=
  ∃ tree, state.dataTree.Alike hidden tree ∧ other = { state with dataTree := tree }

def KeeperStore.Alike (hidden : Bytes → Prop) (store other : KeeperStore) : Prop :=
  ∃ tree, store.dataTree.Alike hidden tree ∧ other = { store with dataTree := tree }

/-- Undo actions that differ in nothing but the data that they put back at hidden paths. -/
inductive Undo.Alike (hidden : Bytes → Prop) : Undo → Undo → Prop
  | nothing : Alike hidden .nothing .nothing
  | create (undo : CreateUndo) : Alike hidden (.create undo) (.create undo)
  | remove (undo : RemoveUndo) {twin : KeeperNode}
      (isTwin : undo.prevNode.Twin (hidden undo.path) twin) :
      Alike hidden (.remove undo) (.remove { undo with prevNode := twin })
  | set {path : Bytes} {prevNode twin : KeeperNode} (isTwin : prevNode.Twin (hidden path) twin) :
      Alike hidden (.set prevNode path) (.set twin path)

/-- Calls that end the same way, with related values and related states left behind. -/
inductive Result.Rel {σ α : Type} (states : σ → σ → Prop) (values : α → α → Prop) :
    Result σ α → Result σ α → Prop
  | returned {value other : α} (related : values value other) :
      Rel states values (.returned value) (.returned other)
  | thrown (exception : Exception) {state other : σ} (related : states state other) :
      Rel states values (.thrown exception state) (.thrown exception other)
  | crashed : Rel states values .crashed .crashed
  | blocked : Rel states values .blocked .blocked

/-- What an operation hands back in two states: equal responses, and states and undos alike. -/
def Processed.Alike (hidden : Bytes → Prop) (processed other : Processed) : Prop :=
  processed.1.Alike hidden other.1 ∧ processed.2.1 = other.2.1 ∧
    processed.2.2.Alike hidden other.2.2

section

variable {hidden : Prop} {node twin : KeeperNode}

theorem KeeperNode.Twin.refl (hidden : Prop) (node : KeeperNode) : node.Twin hidden node :=
  ⟨node.data, rfl, .inr rfl⟩

theorem KeeperNode.Twin.change (isTwin : node.Twin hidden twin) (update : KeeperNode → KeeperNode)
    (keepsData : ∀ node : KeeperNode, (update node).data = node.data)
    (ignoresData : ∀ (node : KeeperNode) data, update { node with data := data } =
      { update node with data := data }) : (update node).Twin hidden (update twin) := by
  rcases isTwin with ⟨data, rfl, same⟩
  exact ⟨data, ignoresData node data, by rwa [keepsData]⟩

end

section

variable {hidden : Bytes → Prop} {tree other : DataTree}

theorem DataTree.Alike.refl (hidden : Bytes → Prop) (tree : DataTree) : tree.Alike hidden tree :=
  Finmap.Related.refl (fun _ node => .refl _ node) tree

theorem DataTree.Alike.cases (alike : tree.Alike hidden other) (path : Bytes) :
    (tree.lookup path = none ∧ other.lookup path = none) ∨
      ∃ node data, tree.lookup path = some node ∧
        other.lookup path = some { node with data := data } ∧
        (hidden path ∨ data = node.data) := by
  cases found : tree.lookup path with
  | none => exact .inl ⟨rfl, alike.lookup_none found⟩
  | some node =>
    rcases alike.lookup_some found with ⟨_, twinFound, data, rfl, isTwin⟩
    exact .inr ⟨node, data, rfl, twinFound, isTwin⟩

theorem DataTree.Alike.modify (alike : tree.Alike hidden other) {path : Bytes}
    {update : KeeperNode → KeeperNode}
    (keepsData : ∀ node : KeeperNode, (update node).data = node.data)
    (ignoresData : ∀ (node : KeeperNode) data, update { node with data := data } =
      { update node with data := data }) :
    DataTree.Alike hidden (tree.modify path update) (other.modify path update) :=
  Finmap.Related.modify alike fun _ _ isTwin => isTwin.change update keepsData ignoresData

theorem DataTree.Alike.dropEphemeral (alike : tree.Alike hidden other) (path : Bytes) :
    DataTree.Alike hidden (dropEphemeral tree path) (dropEphemeral other path) := by
  apply Finmap.Related.erase
  exact alike.modify (fun _ => rfl) (fun _ _ => rfl)

theorem DataTree.Alike.foldl_dropEphemeral (paths : List Bytes)
    (alike : tree.Alike hidden other) :
    DataTree.Alike hidden (paths.foldl RaftKeeper.dropEphemeral tree)
      (paths.foldl RaftKeeper.dropEphemeral other) := by
  induction paths generalizing tree other with
  | nil => exact alike
  | cons path rest ih => exact ih (alike.dropEphemeral path)

end

section

variable {hidden : Bytes → Prop} {state : StoreState} {tree : DataTree}

theorem StoreState.Alike.intro (alike : state.dataTree.Alike hidden tree) :
    state.Alike hidden { state with dataTree := tree } := ⟨tree, alike, rfl⟩

theorem rel_ite {α : Type} (relation : α → α → Prop) {condition : Prop} [Decidable condition]
    {yes no otherYes otherNo : α} (positive : relation yes otherYes)
    (negative : relation no otherNo) :
    relation (if condition then yes else no) (if condition then otherYes else otherNo) := by
  split
  · exact positive
  · exact negative

theorem Processed.Alike.unchanged (alike : state.dataTree.Alike hidden tree) (response : Response) :
    Processed.Alike hidden (state, response, .nothing)
      ({ state with dataTree := tree }, response, .nothing) := ⟨.intro alike, rfl, .nothing⟩

namespace StoreState

theorem createACL_withTree (state : StoreState) (tree : DataTree) (session : Int64) (acls : ACLs) :
    createACL { state with dataTree := tree } session acls =
      ({ (state.createACL session acls).1 with dataTree := tree },
        (state.createACL session acls).2) := by
  simp only [createACL]
  split
  · rfl
  · simp only [authsOf]
    split <;> rfl

theorem createACL_dataTree (state : StoreState) (session : Int64) (acls : ACLs) :
    (state.createACL session acls).1.dataTree = state.dataTree := by
  simp only [createACL]
  split
  · rfl
  · split <;> rfl

variable (alike : state.dataTree.Alike hidden tree)

include alike

theorem create_alike (zxid session time : Int64) (request : CreateRequest) :
    Processed.Alike hidden (state.create zxid session time request)
      (create { state with dataTree := tree } zxid session time request) := by
  have unchanged := Processed.Alike.unchanged alike
  simp only [create]
  rcases alike.cases (getParentPath request.path) with
    ⟨absent, noTwin⟩ | ⟨parent, data, found, twinFound, _⟩
  · simp only [absent, noTwin]
    exact unchanged _
  · have samePath : request.pathCreated { parent with data := data } =
        request.pathCreated parent := rfl
    simp only [found, twinFound, samePath, alike.isSome_eq, createACL_withTree]
    refine rel_ite (Processed.Alike hidden) (unchanged _) ?_
    refine rel_ite (Processed.Alike hidden) (unchanged _) ?_
    refine rel_ite (Processed.Alike hidden)
      (rel_ite (Processed.Alike hidden) (unchanged _) (unchanged _)) ?_
    refine rel_ite (Processed.Alike hidden) (unchanged _) ?_
    have sameTree := state.createACL_dataTree session request.acls
    generalize state.createACL session request.acls = result at sameTree
    rcases result with ⟨interned, number⟩
    have internedAlike : interned.dataTree.Alike hidden tree := sameTree ▸ alike
    cases number with
    | none => exact .unchanged internedAlike _
    | some aclId =>
      refine ⟨⟨_, ?_, rfl⟩, rfl, .create _⟩
      apply Finmap.Related.insert
      · exact internedAlike.modify (fun _ => rfl) (fun _ _ => rfl)
      · exact .refl _ _

theorem remove_alike (zxid : Int64) (request : RemoveRequest) :
    Result.Rel (Alike hidden) (Processed.Alike hidden) (state.remove zxid request)
      (remove { state with dataTree := tree } zxid request) := by
  have failed : ∀ response, Result.Rel (Alike hidden) (Processed.Alike hidden)
      (.returned (state, response, .nothing))
      (.returned ({ state with dataTree := tree }, response, .nothing)) :=
    fun response => .returned (.unchanged alike response)
  simp only [remove]
  rcases alike.cases request.path with ⟨absent, noTwin⟩ | ⟨node, data, found, twinFound, isTwin⟩
  · simp only [absent, noTwin]
    exact failed _
  · simp only [found, twinFound]
    refine rel_ite (Result.Rel (Alike hidden) (Processed.Alike hidden)) (failed _) ?_
    refine rel_ite (Result.Rel (Alike hidden) (Processed.Alike hidden)) (failed _) ?_
    rcases alike.cases (getParentPath request.path) with
      ⟨absent, noTwin⟩ | ⟨parent, _, parentFound, parentTwinFound, _⟩
    · simp only [absent, noTwin]
      exact .crashed
    · simp only [parentFound, parentTwinFound]
      refine .returned ⟨⟨_, ?_, rfl⟩, rfl, .remove (removeUndo request.path node parent) ?_⟩
      · apply Finmap.Related.erase
        exact alike.modify (fun _ => rfl) (fun _ _ => rfl)
      · exact ⟨data, rfl, isTwin⟩

theorem set_alike (zxid time : Int64) (request : SetRequest) :
    Processed.Alike hidden (state.set zxid time request)
      (set { state with dataTree := tree } zxid time request) := by
  simp only [set]
  rcases alike.cases request.path with ⟨absent, noTwin⟩ | ⟨node, data, found, twinFound, isTwin⟩
  · simp only [absent, noTwin]
    exact .unchanged alike _
  · simp only [found, twinFound]
    refine rel_ite (Processed.Alike hidden) ?_ (.unchanged alike _)
    refine ⟨⟨_, ?_, rfl⟩, rfl, .set ⟨data, rfl, isTwin⟩⟩
    -- both nodes now hold the data of the request
    exact Finmap.Related.insert alike (.refl _ _)

theorem setACL_alike (session : Int64) (request : SetACLRequest) :
    (state.setACL session request).1.Alike hidden
        (setACL { state with dataTree := tree } session request).1 ∧
      (state.setACL session request).2 =
        (setACL { state with dataTree := tree } session request).2 := by
  simp only [setACL]
  rcases alike.cases request.path with ⟨absent, noTwin⟩ | ⟨node, data, found, twinFound, isTwin⟩
  · simp only [absent, noTwin]
    exact ⟨.intro alike, trivial⟩
  · simp only [found, twinFound]
    split
    · exact ⟨.intro alike, rfl⟩
    · simp only [authsOf]
      split
      · exact ⟨⟨tree, alike, rfl⟩, rfl⟩
      · refine ⟨⟨_, ?_, rfl⟩, rfl⟩
        apply Finmap.Related.insert alike
        exact ⟨data, rfl, isTwin⟩

theorem auth_alike (platform : Platform) (session : Int64) (scheme data : Bytes) :
    (state.auth platform session scheme data).1.Alike hidden
        (auth { state with dataTree := tree } platform session scheme data).1 ∧
      (state.auth platform session scheme data).2 =
        (auth { state with dataTree := tree } platform session scheme data).2 := by
  simp only [auth]
  split
  · exact ⟨.intro alike, rfl⟩
  · exact ⟨⟨tree, alike, rfl⟩, rfl⟩

/-! Of the reads, only Get returns data. -/

theorem get_alike {path : Bytes} (visible : ¬ hidden path) :
    state.get path = get { state with dataTree := tree } path := by
  simp only [get]
  rcases alike.cases path with
    ⟨absent, noTwin⟩ | ⟨node, data, found, twinFound, isHidden | rfl⟩
  · simp only [absent, noTwin]
  · exact absurd isHidden visible
  · simp only [found, twinFound]

theorem exists_alike (path : Bytes) :
    state.exists path = StoreState.exists { state with dataTree := tree } path := by
  simp only [StoreState.exists]
  rcases alike.cases path with ⟨absent, noTwin⟩ | ⟨node, data, found, twinFound, _⟩
  · simp only [absent, noTwin]
  · simp only [found, twinFound]
    rfl

theorem check_alike (request : CheckRequest) :
    state.check request = check { state with dataTree := tree } request := by
  simp only [check]
  rcases alike.cases request.path with ⟨absent, noTwin⟩ | ⟨node, data, found, twinFound, _⟩
  · simp only [absent, noTwin]
  · simp only [found, twinFound]

theorem shows_alike (listRequestType : UInt8) (path : Bytes) :
    (tree.lookup path).any (showsNode listRequestType) =
      (state.dataTree.lookup path).any (showsNode listRequestType) := by
  rcases alike.cases path with ⟨absent, noTwin⟩ | ⟨node, data, found, twinFound, _⟩
  · rw [absent, noTwin]
  · rw [found, twinFound]
    rfl

theorem list_alike (kind : ListKind) (path : Bytes) :
    Result.Rel (Alike hidden) Eq (state.list kind path)
      (list { state with dataTree := tree } kind path) := by
  simp only [list]
  rcases alike.cases path with ⟨absent, noTwin⟩ | ⟨node, data, found, twinFound, _⟩
  · simp only [absent, noTwin]
    exact .returned rfl
  · simp only [found, twinFound, alike.isSome_eq, shows_alike alike]
    refine rel_ite (Result.Rel (Alike hidden) Eq) (.thrown _ (.intro alike)) ?_
    cases kind with
    | simple | full => exact .returned rfl
    | filtered listRequestType =>
      refine rel_ite (Result.Rel (Alike hidden) Eq) (.returned rfl) ?_
      exact rel_ite (Result.Rel (Alike hidden) Eq) (.returned rfl) .crashed

theorem getACL_alike (path : Bytes) :
    Result.Rel (Alike hidden) Eq (state.getACL path)
      (getACL { state with dataTree := tree } path) := by
  simp only [getACL]
  rcases alike.cases path with ⟨absent, noTwin⟩ | ⟨node, data, found, twinFound, _⟩
  · simp only [absent, noTwin]
    exact .returned rfl
  · simp only [found, twinFound]
    cases state.aclMap.convertNumber node.aclId with
    | none => exact .thrown _ (.intro alike)
    | some acls => exact .returned rfl

theorem rel_keeping {result other : Result StoreState Response}
    (related : Result.Rel (Alike hidden) Eq result other) :
    Result.Rel (Alike hidden) (Processed.Alike hidden) (result.keeping state)
      (other.keeping { state with dataTree := tree }) := by
  cases related with
  | returned same =>
    subst same
    exact .returned (.unchanged alike _)
  | thrown exception related => exact .thrown exception related
  | crashed | blocked => constructor

theorem process_alike (platform : Platform) (zxid session time : Int64) {request : SingleRequest}
    (visible : ∀ path hasWatch, request = .get path hasWatch → ¬ hidden path) :
    Result.Rel (Alike hidden) (Processed.Alike hidden)
      (state.process platform zxid session time request)
      (process platform { state with dataTree := tree } zxid session time request) := by
  cases request with
  | heartbeat | setWatches _ | sync _ => exact .returned (.unchanged alike _)
  | auth type scheme data =>
    have authAlike := auth_alike alike platform session scheme data
    exact .returned ⟨authAlike.1, authAlike.2, .nothing⟩
  | close => exact .thrown _ (.intro alike)
  | create request => exact .returned (create_alike alike zxid session time request)
  | remove request => exact remove_alike alike zxid request
  | «exists» path hasWatch =>
    exact .returned ⟨.intro alike, exists_alike alike path, .nothing⟩
  | get path hasWatch =>
    exact .returned ⟨.intro alike, get_alike alike (visible path hasWatch rfl), .nothing⟩
  | set request => exact .returned (set_alike alike zxid time request)
  | list kind path hasWatch => exact rel_keeping alike (list_alike alike kind path)
  | check request => exact .returned ⟨.intro alike, check_alike alike request, .nothing⟩
  | setACL request =>
    have setAlike := setACL_alike alike session request
    exact .returned ⟨setAlike.1, setAlike.2, .nothing⟩
  | getACL path => exact rel_keeping alike (getACL_alike alike path)
  | newSession _ | updateSession _ => exact .thrown _ (.intro alike)

end StoreState

theorem Undo.Alike.run {undo other : Undo} (undosAlike : undo.Alike hidden other)
    (alike : state.dataTree.Alike hidden tree) :
    Option.Rel (StoreState.Alike hidden) (undo.run state)
      (other.run { state with dataTree := tree }) := by
  cases undosAlike with
  | nothing => exact .some (.intro alike)
  | create undo =>
    have removed : DataTree.Alike hidden (state.dataTree.erase undo.pathCreated)
        (tree.erase undo.pathCreated) := Finmap.Related.erase alike _
    simp only [Undo.run, Undo.dataTree]
    rcases removed.cases undo.parentPath with ⟨absent, noTwin⟩ | ⟨parent, data, found, twinFound, _⟩
    · simp only [absent, noTwin]
      exact .none
    · simp only [found, twinFound]
      exact .some ⟨_, removed.modify (fun _ => rfl) (fun _ _ => rfl), rfl⟩
  | remove undo isTwin =>
    have added : DataTree.Alike hidden (state.dataTree.insert undo.path undo.prevNode)
        (tree.insert undo.path _) := Finmap.Related.insert alike isTwin
    rcases isTwin with ⟨data, rfl, _⟩
    simp only [Undo.run, Undo.dataTree]
    rcases added.cases (getParentPath undo.path) with
      ⟨absent, noTwin⟩ | ⟨parent, _, found, twinFound, _⟩
    · simp only [absent, noTwin]
      exact .none
    · simp only [found, twinFound]
      exact .some ⟨_, added.modify (fun _ => rfl) (fun _ _ => rfl), rfl⟩
  | set isTwin => exact .some ⟨_, Finmap.Related.insert alike isTwin, rfl⟩

theorem Undo.Alike.runAll {undos others : List Undo}
    (undosAlike : List.Forall₂ (Undo.Alike hidden) undos others)
    (alike : state.dataTree.Alike hidden tree) :
    Option.Rel (StoreState.Alike hidden) (Undo.runAll undos state)
      (Undo.runAll others { state with dataTree := tree }) := by
  induction undosAlike generalizing state tree with
  | nil => exact .some (.intro alike)
  | @cons undo other undos others first _ ih =>
    simp only [Undo.runAll]
    have ran := first.run alike
    generalize undo.run state = result at ran
    generalize other.run { state with dataTree := tree } = otherResult at ran
    cases ran with
    | none => exact .none
    | some related =>
      rcases related with ⟨_, undoneAlike, rfl⟩
      exact ih undoneAlike

theorem StoreRequestMultiTxn.loop_alike (platform : Platform) (zxid session time : Int64)
    (operationType : OperationType) {requests : List SingleRequest}
    (visible : ∀ path hasWatch, SingleRequest.get path hasWatch ∈ requests → ¬ hidden path)
    (alike : state.dataTree.Alike hidden tree) (responses : List Response)
    {undos others : List Undo} (undosAlike : List.Forall₂ (Undo.Alike hidden) undos others) :
    Result.Rel (StoreState.Alike hidden) (fun left right => left.1.Alike hidden right.1 ∧
        left.2 = right.2)
      (loop platform zxid session time operationType requests state responses undos)
      (loop platform zxid session time operationType requests { state with dataTree := tree }
        responses others) := by
  induction requests generalizing state tree responses undos others with
  | nil => exact .returned ⟨.intro alike, rfl⟩
  | cons request rest ih =>
    have first := StoreState.process_alike alike platform zxid session time
      (fun path hasWatch isGet => visible path hasWatch (isGet ▸ List.mem_cons_self))
    simp only [loop]
    generalize state.process platform zxid session time request = result at first
    generalize StoreState.process platform { state with dataTree := tree } zxid session time
      request = otherResult at first
    cases first with
    | crashed | blocked => constructor
    | thrown exception related =>
      rcases related with ⟨_, thrownAlike, rfl⟩
      have undone := Undo.Alike.runAll undosAlike thrownAlike
      dsimp only
      generalize Undo.runAll undos _ = left at undone
      generalize Undo.runAll others _ = right at undone
      cases undone with
      | none => exact .crashed
      | some related => exact .thrown exception related
    | returned related =>
      rename_i processed otherProcessed
      rcases processed with ⟨after, response, undo⟩
      rcases otherProcessed with ⟨otherAfter, otherResponse, otherUndo⟩
      rcases related with ⟨⟨_, afterAlike, rfl⟩, rfl, undoAlike⟩
      dsimp only
      apply rel_ite
      · have undone := Undo.Alike.runAll undosAlike afterAlike
        generalize Undo.runAll undos after = left at undone
        generalize Undo.runAll others _ = right at undone
        cases undone with
        | none => exact .crashed
        | some related => exact .returned ⟨related, rfl⟩
      · apply ih
        · intro path hasWatch isMember
          exact visible path hasWatch (List.mem_cons_of_mem _ isMember)
        · exact afterAlike
        · exact .cons undoAlike undosAlike

end

/--
A list that gives a session no permission of this kind: neither through world:anyone, nor
through an identity of the session, which has no super identity either. An empty list is
open to everyone.
-/
structure ACLs.Denies (permission : Int32) (acls : ACLs) (auths : AuthIDs) : Prop where
  nonempty : acls ≠ []
  notSuper : ∀ auth ∈ auths, auth.scheme ≠ ascii "super"
  notWorld : ∀ acl ∈ acls, acl.permissions &&& permission ≠ 0 →
    ¬ (acl.scheme = ascii "world" ∧ acl.id = ascii "anyone")
  notOwn : ∀ acl ∈ acls, acl.permissions &&& permission ≠ 0 →
    ∀ auth ∈ auths, ¬ (acl.scheme = auth.scheme ∧ acl.id = auth.id)

theorem checkACL_of_denies {permission : Int32} {acls : ACLs} {auths : AuthIDs}
    (denies : acls.Denies permission auths) : checkACL permission acls auths = false := by
  simp only [checkACL, Bool.or_eq_false_iff, List.isEmpty_eq_false_iff, List.any_eq_false]
  refine ⟨⟨denies.nonempty, fun auth isAuth => by simpa using denies.notSuper auth isAuth⟩, ?_⟩
  intro acl isAcl
  by_cases given : acl.permissions &&& permission = 0
  · simp [given]
  · have notWorld := denies.notWorld acl isAcl given
    have notOwn := denies.notOwn acl isAcl given
    simp only [not_and] at notWorld notOwn
    simpa [given] using ⟨notWorld, notOwn⟩

/-- The session may not read the node at this path. -/
def StoreState.Unreadable (state : StoreState) (session : Int64) (path : Bytes) : Prop :=
  ∃ node acls, state.dataTree.lookup path = some node ∧
    state.aclMap.convertNumber node.aclId = some acls ∧ acls.Denies ACL.read (state.authsOf session)

section

variable {hidden : Bytes → Prop} {state : StoreState} {tree : DataTree} {session : Int64}

theorem StoreState.checkAuth_alike (alike : state.dataTree.Alike hidden tree) (session : Int64)
    (request : SingleRequest) :
    checkAuth { state with dataTree := tree } session request =
      state.checkAuth session request := by
  have same : ∀ permission path, checkAuthAt { state with dataTree := tree } session permission
      path = state.checkAuthAt session permission path := by
    intro permission path
    simp only [checkAuthAt]
    rcases alike.cases path with ⟨absent, noTwin⟩ | ⟨node, data, found, twinFound, _⟩
    · rw [absent, noTwin]
    · rw [found, twinFound]
      rfl
  cases request <;> first | exact same _ _ | rfl

theorem StoreRequestMultiTxn.checkAuth_alike (alike : state.dataTree.Alike hidden tree)
    (session : Int64) (requests : List SingleRequest) :
    checkAuth { state with dataTree := tree } session requests =
      checkAuth state session requests := by
  induction requests with
  | nil => rfl
  | cons request rest ih => simp only [checkAuth, StoreState.checkAuth_alike alike, ih]

theorem StoreState.readable_of_checkAuth {path : Bytes} {hasWatch : Bool}
    (passed : state.checkAuth session (.get path hasWatch) = .ok true) :
    ¬ state.Unreadable session path := by
  rintro ⟨node, acls, found, resolved, denies⟩
  simp only [checkAuth, checkAuthAt, found, resolved, checkACL_of_denies denies] at passed
  cases passed

theorem StoreRequestMultiTxn.readable_of_checkAuth {requests : List SingleRequest}
    (passed : checkAuth state session requests = .ok true) {path : Bytes} {hasWatch : Bool}
    (isMember : .get path hasWatch ∈ requests) : ¬ state.Unreadable session path := by
  induction requests with
  | nil => cases isMember
  | cons request rest ih =>
    simp only [checkAuth] at passed
    split at passed
    · rename_i passedFirst
      rcases List.mem_cons.mp isMember with rfl | later
      · exact StoreState.readable_of_checkAuth passedFirst
      · exact ih passed later
    · rename_i refused
      exact absurd passed refused

theorem StoreRequest.checkAuth_alike (alike : state.dataTree.Alike hidden tree) (session : Int64)
    (request : StoreRequest) :
    request.checkAuth { state with dataTree := tree } session =
      request.checkAuth state session := by
  cases request with
  | single request => exact StoreState.checkAuth_alike alike session request
  | multi txn => exact StoreRequestMultiTxn.checkAuth_alike alike session txn.concreteRequests

/-- Two responses to one request are equal, and the states that they leave are alike. -/
def StoreState.RespondedAlike (hidden : Bytes → Prop) (responded other : StoreState × Response) :
    Prop := responded.1.Alike hidden other.1 ∧ responded.2 = other.2

theorem StoreRequest.process_alike {request : StoreRequest}
    (alike : state.dataTree.Alike hidden tree)
    (covers : ∀ path, hidden path → state.Unreadable session path)
    (passed : request.checkAuth state session = .ok true) (platform : Platform)
    (zxid time : Int64) (type : OperationType) :
    Result.Rel (StoreState.Alike hidden) (StoreState.RespondedAlike hidden)
      (request.process platform state zxid session time type)
      (request.process platform { state with dataTree := tree } zxid session time type) := by
  cases request with
  | single request =>
    have visible : ∀ path hasWatch, request = .get path hasWatch → ¬ hidden path := by
      rintro path hasWatch rfl isHidden
      exact @StoreState.readable_of_checkAuth _ _ _ hasWatch passed (covers path isHidden)
    have processed := StoreState.process_alike alike platform zxid session time visible
    simp only [process]
    generalize state.process platform zxid session time request = result at processed
    generalize StoreState.process platform { state with dataTree := tree } zxid session time
      request = otherResult at processed
    cases processed with
    | returned related => exact .returned ⟨related.1, related.2.1⟩
    | thrown exception related => exact .thrown exception related
    | crashed | blocked => constructor
  | multi txn =>
    have processed := StoreRequestMultiTxn.loop_alike platform zxid session time
      txn.operationType (fun path _ isMember isHidden =>
        StoreRequestMultiTxn.readable_of_checkAuth passed isMember (covers path isHidden)) alike []
      .nil
    simp only [process]
    generalize StoreRequestMultiTxn.loop platform zxid session time txn.operationType
      txn.concreteRequests state [] [] = result at processed
    generalize StoreRequestMultiTxn.loop platform zxid session time txn.operationType
      txn.concreteRequests { state with dataTree := tree } [] [] = otherResult at processed
    cases processed with
    | returned related => exact .returned ⟨related.1, by simp only [related.2]⟩
    | thrown exception related => exact .thrown exception related
    | crashed | blocked => constructor

end

namespace KeeperStore

section

variable {hidden : Bytes → Prop} {store : KeeperStore} {tree : DataTree}

/-- Equal responses, and stores that are alike. -/
def AnsweredAlike (hidden : Bytes → Prop) (answered other : Answered) : Prop :=
  answered.1.Alike hidden other.1 ∧ answered.2 = other.2

theorem closeSession_alike (alike : store.dataTree.Alike hidden tree) (call : Call) :
    Result.Rel (Alike hidden) (AnsweredAlike hidden) (store.closeSession call)
      (closeSession { store with dataTree := tree } call) := by
  simp only [closeSession, cleanEphemeralNodes]
  cases store.ephemerals.lookup call.request.sessionId with
  | none =>
    dsimp only
    cases store.sessionManager.expireSession call.request.sessionId with
    | none => exact .crashed
    | some sessionManager => exact .returned ⟨⟨tree, alike, rfl⟩, rfl⟩
  | some ephemeralPaths =>
    dsimp only
    cases store.sessionManager.expireSession call.request.sessionId with
    | none => exact .crashed
    | some sessionManager => exact .returned ⟨⟨_, alike.foldl_dropEphemeral _, rfl⟩, rfl⟩

theorem setWatches_alike (alike : store.dataTree.Alike hidden tree) (call : Call)
    (request : SetWatchesRequest) :
    Result.Rel (Alike hidden) (AnsweredAlike hidden) (store.setWatches call request)
      (setWatches { store with dataTree := tree } call request) := by
  have sameStamps : watchNodesInfo { store with dataTree := tree } request =
      store.watchNodesInfo request := by
    funext path
    simp only [watchNodesInfo]
    rcases alike.cases path with ⟨absent, noTwin⟩ | ⟨node, data, found, twinFound, _⟩
    · rw [absent, noTwin]
    · rw [found, twinFound]
      rfl
  simp only [setWatches, sameStamps]
  cases store.watchManager.processRequestSetWatch call.request.sessionId request _ with
  | none => exact .blocked
  | some result => exact .returned ⟨⟨tree, alike, rfl⟩, rfl⟩

section

variable {call : Call} (checked : call.checkAcl = true) (platform : Platform)
  (alike : store.dataTree.Alike hidden tree)
  (covers : ∀ path, hidden path → store.Unreadable call.request.sessionId path)

include checked alike covers

theorem respond_alike :
    Result.Rel (StoreState.Alike hidden) (StoreState.RespondedAlike hidden)
      (store.respond platform call) (respond platform { store with dataTree := tree } call) := by
  simp only [respond, checked, if_true]
  cases StoreRequest.make call.request.request with
  | error exception => exact .thrown exception ⟨tree, alike, rfl⟩
  | ok request =>
    dsimp only
    rw [StoreRequest.checkAuth_alike alike]
    cases passed : request.checkAuth store.toStoreState call.request.sessionId with
    | error exception => exact .thrown exception ⟨tree, alike, rfl⟩
    | ok authorised =>
      cases authorised with
      | false => exact .returned ⟨⟨tree, alike, rfl⟩, rfl⟩
      | true => exact StoreRequest.process_alike alike covers passed platform _ _ _

theorem processStoreRequest_alike :
    Result.Rel (Alike hidden) (AnsweredAlike hidden) (store.processStoreRequest platform call)
      (processStoreRequest platform { store with dataTree := tree } call) := by
  have responded := respond_alike checked platform alike covers
  simp only [processStoreRequest]
  generalize store.respond platform call = result at responded
  generalize respond platform { store with dataTree := tree } call = otherResult at responded
  cases responded with
  | crashed | blocked => constructor
  | thrown exception related =>
    rcases related with ⟨after, afterAlike, rfl⟩
    exact .thrown exception ⟨after, afterAlike, rfl⟩
  | returned related =>
    rename_i answered otherAnswered
    rcases answered with ⟨after, response⟩
    rcases otherAnswered with ⟨otherAfter, otherResponse⟩
    rcases related with ⟨⟨tree, afterAlike, rfl⟩, rfl⟩
    exact .returned ⟨⟨tree, afterAlike, rfl⟩, rfl⟩

theorem processSessionRequest_alike :
    Result.Rel (Alike hidden) (AnsweredAlike hidden) (store.processSessionRequest platform call)
      (processSessionRequest platform { store with dataTree := tree } call) := by
  simp only [processSessionRequest]
  cases store.sessionManager.updateSessionExpirationTime call.env.now call.request.sessionId with
  | none => exact .crashed
  | some sessionManager =>
    dsimp only
    split
    · exact .returned ⟨⟨tree, alike, rfl⟩, rfl⟩
    · exact @setWatches_alike _ { store with sessionManager := sessionManager } _ alike call _
    all_goals
      exact @processStoreRequest_alike _ { store with sessionManager := sessionManager } _ _
        checked platform alike covers

theorem dispatch_alike :
    Result.Rel (Alike hidden) (AnsweredAlike hidden) (store.dispatch platform call)
      (dispatch platform { store with dataTree := tree } call) := by
  simp only [dispatch]
  split
  · exact closeSession_alike alike call
  · simp only [newSession]
    cases store.sessionManager.getSessionID call.env.now _ with
    | none => exact .crashed
    | some sessionManager => exact .returned ⟨⟨tree, alike, rfl⟩, rfl⟩
  · simp only [updateSession]
    cases store.sessionManager.updateSessionTimeout call.env.now call.request.sessionId with
    | none => exact .crashed
    | some result => exact .returned ⟨⟨tree, alike, rfl⟩, rfl⟩
  all_goals
    apply rel_ite
    · exact .returned ⟨⟨tree, alike, rfl⟩, rfl⟩
    · exact processSessionRequest_alike checked platform alike covers

end

end

/--
Two stores that differ only in data that a session may not read answer every request of that
session the same way: the call ends the same way and pushes the same responses and events.
The stores that are left differ only in the same places.
-/
theorem unreadable_data_confidential {store other : KeeperStore} {call : Call}
    (checked : call.checkAcl = true)
    (alike : store.Alike (store.Unreadable call.request.sessionId) other)
    (platform : Platform) :
    Result.Rel (Alike (store.Unreadable call.request.sessionId))
      (AnsweredAlike (store.Unreadable call.request.sessionId))
      (store.processRequest platform call) (other.processRequest platform call) := by
  rcases alike with ⟨tree, alike, rfl⟩
  simp only [processRequest]
  cases call.newLastZxid with
  | none => exact dispatch_alike checked platform alike fun _ isHidden => isHidden
  | some zxid =>
    apply rel_ite
    · exact .thrown _ ⟨tree, alike, rfl⟩
    · exact @dispatch_alike _ { store with zxid := zxid } _ _ checked platform alike
        fun _ isHidden => isHidden

theorem alike_modify_data {hidden : Bytes → Prop} {path : Bytes} (isHidden : hidden path)
    (store : KeeperStore) (data : Bytes) :
    store.Alike hidden
      { store with
        dataTree := store.dataTree.modify path fun node => { node with data := data } } := by
  refine ⟨_, fun other => ?_, rfl⟩
  rw [Finmap.lookup_modify]
  split
  · rename_i same
    rw [same]
    cases store.dataTree.lookup path with
    | none => exact .none
    | some node => exact .some ⟨data, rfl, .inl isHidden⟩
  · exact DataTree.Alike.refl hidden store.dataTree other

def secretNodeRun : List Call :=
  [.sampleSession, .sample 1 (.single (.create
    { path := ascii "/a", data := ascii "secret"
      acls := [{ permissions := 31, scheme := ascii "digest", id := ascii "v:q" }] }))]

def secretNodeCall : Call :=
  .sample 1 (.multi .read
    [.single (.exists (ascii "/a") false), .single (.get (ascii "/a") false)])

theorem unreadable_data_confidential_secretNode :
    ∃ store other, ReachableBy (next .sample) (fun _ _ => True) sample store ∧
      store.Alike (store.Unreadable 1) other ∧
      (store.dataTree.lookup (ascii "/a")).map KeeperNode.data = some (ascii "secret") ∧
      (other.dataTree.lookup (ascii "/a")).map KeeperNode.data = some (ascii "hidden") ∧
      Result.Rel (Alike (store.Unreadable 1)) (AnsweredAlike (store.Unreadable 1))
        (store.processRequest .sample secretNodeCall)
        (other.processRequest .sample secretNodeCall) := by
  simp only [exists_and_left]
  refine exists_reached_of (fun store => ∃ node, store.dataTree.lookup (ascii "/a") = some node ∧
      node.data = ascii "secret" ∧ store.aclMap.convertNumber node.aclId = some
        [{ permissions := 31, scheme := ascii "digest", id := ascii "v:q" }] ∧
      store.authsOf 1 = []) secretNodeRun (by decide +kernel) ?_
  rintro store reached ⟨node, found, isSecret, resolved, noAuths⟩
  have denies : ACLs.Denies ACL.read
      [{ permissions := 31, scheme := ascii "digest", id := ascii "v:q" }] [] :=
    ⟨by decide, by decide, by decide, by decide⟩
  have isHidden : store.Unreadable 1 (ascii "/a") :=
    ⟨node, _, found, resolved, noAuths ▸ denies⟩
  have alike := alike_modify_data isHidden store (ascii "hidden")
  refine ⟨_, alike, ?_, ?_, @unreadable_data_confidential store _ secretNodeCall rfl alike .sample⟩
  · rw [found, Option.map_some, isSecret]
  · rw [Finmap.lookup_modify, if_pos rfl, found]
    rfl

end KeeperStore

end RaftKeeper
