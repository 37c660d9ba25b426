import RaftKeeper.Store.ProcessRequest

/-!
# What an operation can do

`Effect` lists what one operation that may be part of a Multi can do to the `StoreState`, together
with its undo action. `Operation` lists what any operation can do, together with the change of the
tree that is read off its response; an operation that fails makes none. `ProcessSpec` is what is
known of an operation that has returned.
-/

namespace RaftKeeper

open Result StoreState

/-- The table gives every session its identities; it may hold more empty entries. -/
def StoreState.SameAuths (state : StoreState) (auths : Dict Int64 AuthIDs) : Prop :=
  ∀ session, (auths.lookup session).getD [] = state.authsOf session

/-- What an operation that may be part of a Multi can do, and how it is undone. -/
inductive Effect (zxid session time : Int64) (before : StoreState) : StoreState → Undo → Prop
  /-- No change, or at most a default entry for the session's identities. -/
  | auths (auths : Dict Int64 AuthIDs) (sameAuths : before.SameAuths auths) :
      Effect zxid session time before { before with sessionAndAuth := auths } .nothing
  | create {request : CreateRequest} {parent : KeeperNode} (nodeAcls : ACLs)
      (auths : Dict Int64 AuthIDs) (sameAuths : before.SameAuths auths)
      (parentFound : before.dataTree.lookup (getParentPath request.path) = some parent)
      (parentPersistent : parent.isEphemeral = false)
      (absent : before.dataTree.lookup (request.pathCreated parent) = none)
      (named : getBaseName (request.pathCreated parent) ≠ []) :
      Effect zxid session time before
        (addCreated
          { before with
            sessionAndAuth := auths
            aclMap := (before.aclMap.intern nodeAcls).2 }
          zxid session time request parent (before.aclMap.intern nodeAcls).1)
        (.create (request.undo session parent (before.aclMap.intern nodeAcls).1))
  | remove {path : Bytes} {node parent : KeeperNode}
      (found : before.dataTree.lookup path = some node) (childless : node.children = ∅)
      (parentFound : before.dataTree.lookup (getParentPath path) = some parent) :
      Effect zxid session time before (before.dropRemoved zxid path node)
        (.remove (removeUndo path node parent))
  | set {path : Bytes} {node : KeeperNode} (data : Bytes)
      (found : before.dataTree.lookup path = some node) :
      Effect zxid session time before
        { before with dataTree := before.dataTree.insert path (node.setData zxid time data) }
        (.set node path)

/-- What a committed request has done to the tree. -/
inductive Change
  | created (request : CreateRequest) (path : Bytes)
  | written (request : SetRequest)
  | removed (request : RemoveRequest)
  /-- The ephemeral nodes of a session that was closed. -/
  | expired (paths : Finset Bytes)

namespace Change

def creates (path : Bytes) : Change → Bool
  | created _ own => own = path
  | written _ | removed _ | expired _ => false

def writes (path : Bytes) : Change → Bool
  | written request => request.path = path
  | created .. | removed _ | expired _ => false

def deletes (path : Bytes) : Change → Bool
  | removed request => request.path = path
  | expired paths => path ∈ paths
  | created .. | written _ => false

def childrenCreated (parent : Bytes) : Change → ℕ
  | created _ path => if getParentPath path = parent then 1 else 0
  | written _ | removed _ | expired _ => 0

def childrenDeleted (parent : Bytes) : Change → ℕ
  | removed request => if getParentPath request.path = parent then 1 else 0
  | expired paths => (paths.filter (getParentPath · = parent)).card
  | created .. | written _ => 0

theorem creates_of_ne {request : CreateRequest} {path other : Bytes} (isOther : other ≠ path) :
    (created request path).creates other = false := decide_eq_false isOther.symm

end Change

def SingleRequest.change (state : StoreState) (response : Response) : SingleRequest → Option Change
  | .create request =>
    match response.payload with
    | .create path =>
      -- CreateIfNotExists reports success for a node that is already there
      if response.error = .zok ∧ (state.dataTree.lookup path).isNone then
        some (.created request path)
      else none
    | _ => none
  | .set request => if response.error = .zok then some (.written request) else none
  | .remove request => if response.error = .zok then some (.removed request) else none
  | _ => none

/-- Everything that an operation can do to the state, and the change it reports. -/
inductive Operation (zxid session time : Int64) (before : StoreState) (request : SingleRequest) :
    StoreState → Option Change → Prop
  | nothing (auths : Dict Int64 AuthIDs) :
      Operation zxid session time before request { before with sessionAndAuth := auths } none
  | setACL {own : SetACLRequest} {node : KeeperNode} (isSetACL : request = .setACL own)
      (nodeAcls : ACLs) (fixed : fixupACL own.acls (before.authsOf session) = some nodeAcls)
      (auths : Dict Int64 AuthIDs) (sameAuths : before.SameAuths auths)
      (found : before.dataTree.lookup own.path = some node) :
      Operation zxid session time before request
        { before with
          sessionAndAuth := auths
          aclMap := (before.aclMap.intern nodeAcls).2
          dataTree := before.dataTree.insert own.path
            { node with
              aclId := (before.aclMap.intern nodeAcls).1
              stat := { node.stat with aversion := node.stat.aversion + 1 } } }
        none
  | create {own : CreateRequest} {parent : KeeperNode} (isCreate : request = .create own)
      (nodeAcls : ACLs) (fixed : fixupACL own.acls (before.authsOf session) = some nodeAcls)
      (auths : Dict Int64 AuthIDs) (sameAuths : before.SameAuths auths)
      (parentFound : before.dataTree.lookup (getParentPath own.path) = some parent)
      (parentPersistent : parent.isEphemeral = false)
      (absent : before.dataTree.lookup (own.pathCreated parent) = none)
      (named : getBaseName (own.pathCreated parent) ≠ []) :
      Operation zxid session time before request
        (StoreState.addCreated
          { before with
            sessionAndAuth := auths
            aclMap := (before.aclMap.intern nodeAcls).2 }
          zxid session time own parent (before.aclMap.intern nodeAcls).1)
        (some (.created own (own.pathCreated parent)))
  | remove {own : RemoveRequest} {node parent : KeeperNode} (isRemove : request = .remove own)
      (found : before.dataTree.lookup own.path = some node)
      (expected : own.version = -1 ∨ own.version = node.stat.version)
      (childless : node.children = ∅)
      (parentFound : before.dataTree.lookup (getParentPath own.path) = some parent) :
      Operation zxid session time before request (before.dropRemoved zxid own.path node)
        (some (.removed own))
  | set {own : SetRequest} {node : KeeperNode} (isSet : request = .set own)
      (found : before.dataTree.lookup own.path = some node)
      (expected : own.version = -1 ∨ own.version = node.stat.version) :
      Operation zxid session time before request
        { before with
          dataTree := before.dataTree.insert own.path (node.setData zxid time own.data) }
        (some (.written own))

/-- The node that a Remove takes out in this state, if its version matches and it is a leaf. -/
def SingleRequest.removed (state : StoreState) : SingleRequest → Option (Bytes × KeeperNode)
  | remove request =>
    ((state.dataTree.lookup request.path).filter fun node =>
      node.children = ∅ && (request.version = -1 || request.version = node.stat.version)).map
        fun node => (request.path, node)
  | _ => none

/-- The undo actions that a request can hand back in this state. -/
inductive SingleRequest.UndoneBy (state : StoreState) (request : SingleRequest) : Undo → Prop
  | nothing : UndoneBy state request .nothing
  | create {own : CreateRequest} (isCreate : request = .create own) (session : Int64)
      (parent : KeeperNode) (aclId : ℕ) :
      UndoneBy state request (.create (own.undo session parent aclId))
  | remove {path : Bytes} {node : KeeperNode} (removed : request.removed state = some (path, node))
      (parent : KeeperNode) : UndoneBy state request (.remove (removeUndo path node parent))
  | set {own : SetRequest} (isSet : request = .set own) (node : KeeperNode) :
      UndoneBy state request (.set node own.path)

/-- What is known of an operation that has returned. -/
structure ProcessSpec (zxid session time : Int64) (state : StoreState) (request : SingleRequest)
    (after : StoreState) (response : Response) (undo : Undo) : Prop where
  operation : Operation zxid session time state request after (request.change state response)
  effect : request.multiType.isSome → Effect zxid session time state after undo
  undone : request.UndoneBy state undo
  fails : response.error ≠ .zok → undo = .nothing

section

variable {platform : Platform} {zxid session time : Int64} {state after : StoreState}
  {request : SingleRequest} {response : Response} {undo : Undo}

theorem Operation.effect_cases {change : Option Change}
    (operation : Operation zxid session time state request after change) :
    (∃ undo, Effect zxid session time state after undo) ∨
      (∃ auths, after = { state with sessionAndAuth := auths }) ∨
      ∃ own node nodeAcls auths, request = .setACL own ∧ state.SameAuths auths ∧
        state.dataTree.lookup own.path = some node ∧
        after = state.replaceAcls auths own.path node nodeAcls := by
  cases operation with
  | nothing auths => exact .inr (.inl ⟨auths, rfl⟩)
  | @setACL own node isSetACL nodeAcls _ auths sameAuths found =>
    exact .inr (.inr ⟨own, node, nodeAcls, auths, isSetACL, sameAuths, found, rfl⟩)
  | create _ nodeAcls _ auths sameAuths parentFound persistent absent named =>
    exact .inl ⟨_, .create nodeAcls auths sameAuths parentFound persistent absent named⟩
  | remove _ found _ childless parentFound =>
    exact .inl ⟨_, .remove found childless parentFound⟩
  | @set own _ _ found => exact .inl ⟨_, .set own.data found⟩

theorem ProcessSpec.auths {auths : Dict Int64 AuthIDs} (sameAuths : state.SameAuths auths)
    (noChange : request.change state response = none) :
    ProcessSpec zxid session time state request { state with sessionAndAuth := auths } response
      .nothing where
  operation := noChange ▸ .nothing auths
  effect _ := .auths auths sameAuths
  undone := .nothing
  fails _ := rfl

theorem ProcessSpec.unchanged (noChange : request.change state response = none) :
    ProcessSpec zxid session time state request state response .nothing :=
  .auths (fun _ => rfl) noChange

theorem StoreState.createACL_cases (state : StoreState) (session : Int64) (acls : ACLs) :
    ∃ auths : Dict Int64 AuthIDs, state.SameAuths auths ∧
      ((fixupACL acls (state.authsOf session) = none ∧
          state.createACL session acls = ({ state with sessionAndAuth := auths }, none)) ∨
        ∃ nodeAcls, fixupACL acls (state.authsOf session) = some nodeAcls ∧
          state.createACL session acls =
            ({ state with
                sessionAndAuth := auths
                aclMap := (state.aclMap.intern nodeAcls).2 },
              some (state.aclMap.intern nodeAcls).1)) := by
  by_cases empty : acls = []
  · refine ⟨state.sessionAndAuth, fun _ => rfl, .inr ⟨[], ?_, ?_⟩⟩
    · simp [fixupACL, empty]
    · simp [createACL, empty]
  · refine ⟨(state.touchAuth session).sessionAndAuth, state.authsOf_touchAuth session, ?_⟩
    cases fixed : fixupACL acls (state.authsOf session) with
    | none =>
      left
      refine ⟨rfl, ?_⟩
      simp [createACL, empty, fixed, touchAuth]
    | some nodeAcls =>
      right
      refine ⟨nodeAcls, rfl, ?_⟩
      simp [createACL, empty, fixed, touchAuth]

namespace StoreState

theorem create_spec {own : CreateRequest}
    (created : state.create zxid session time own = (after, response, undo)) :
    ProcessSpec zxid session time state (.create own) after response undo := by
  unfold create at created
  cases parentFound : state.dataTree.lookup (getParentPath own.path) with
  | none =>
    simp only [parentFound] at created
    cases created
    exact .unchanged rfl
  | some parent =>
    simp only [parentFound] at created
    split at created
    · cases created
      exact .unchanged rfl
    split at created
    · cases created
      exact .unchanged rfl
    split at created
    next isMade =>
      split at created
      next notSequential notExists =>
        cases created
        have isPath : own.pathCreated parent = own.path := by
          rw [CreateRequest.pathCreated, if_neg]
          intro isSequential
          exact notSequential (by rw [isSequential, notExists]; rfl)
        rw [isPath] at isMade
        exact .unchanged (by simp [SingleRequest.change, Option.isSome_iff_ne_none.mp isMade])
      next =>
        cases created
        exact .unchanged rfl
    split at created
    · cases created
      exact .unchanged rfl
    rename_i isEphemeral _ isMade named
    have persistent : parent.isEphemeral = false := by simpa using isEphemeral
    have absent : state.dataTree.lookup (own.pathCreated parent) = none := by simpa using isMade
    rcases state.createACL_cases session own.acls with
      ⟨auths, sameAuths, ⟨_, result⟩ | ⟨nodeAcls, fixed, result⟩⟩
    · simp only [result] at created
      cases created
      exact .auths sameAuths rfl
    · simp only [result] at created
      cases created
      refine ⟨?_, fun _ => .create nodeAcls auths sameAuths parentFound persistent absent named,
        .create rfl _ _ _, fun failed => absurd rfl failed⟩
      simp only [SingleRequest.change, absent, Option.isNone_none, and_self, if_true]
      exact .create rfl nodeAcls fixed auths sameAuths parentFound persistent absent named

theorem remove_spec {own : RemoveRequest}
    (removed : state.remove zxid own = .returned (after, response, undo)) :
    ProcessSpec zxid session time state (.remove own) after response undo := by
  unfold remove at removed
  cases found : state.dataTree.lookup own.path with
  | none =>
    simp only [found] at removed
    cases removed
    exact .unchanged rfl
  | some node =>
    simp only [found] at removed
    split at removed
    · cases removed
      exact .unchanged rfl
    next version =>
      have expected : own.version = -1 ∨ own.version = node.stat.version := by
        by_contra neither
        exact version (not_or.mp neither)
      split at removed
      · cases removed
        exact .unchanged rfl
      next hasChildren =>
        have childless : node.children = ∅ := by simpa using hasChildren
        cases parentFound : state.dataTree.lookup (getParentPath own.path) with
        | none =>
          simp only [parentFound] at removed
          cases removed
        | some parent =>
          simp only [parentFound] at removed
          cases removed
          refine ⟨.remove rfl found expected childless parentFound,
            fun _ => .remove found childless parentFound, .remove ?_ parent,
            fun failed => absurd rfl failed⟩
          simp [SingleRequest.removed, found, childless, expected]

theorem set_spec {own : SetRequest}
    (written : state.set zxid time own = (after, response, undo)) :
    ProcessSpec zxid session time state (.set own) after response undo := by
  unfold StoreState.set at written
  cases found : state.dataTree.lookup own.path with
  | none =>
    simp only [found] at written
    cases written
    exact .unchanged rfl
  | some node =>
    simp only [found] at written
    split at written
    next expected =>
      cases written
      exact ⟨.set rfl found expected, fun _ => .set own.data found, .set rfl node,
        fun failed => absurd rfl failed⟩
    next =>
      cases written
      exact .unchanged rfl

theorem setACL_spec {own : SetACLRequest}
    (replaced : state.setACL session own = (after, response)) :
    ProcessSpec zxid session time state (.setACL own) after response .nothing := by
  unfold StoreState.setACL at replaced
  cases found : state.dataTree.lookup own.path with
  | none =>
    simp only [found] at replaced
    cases replaced
    exact .unchanged rfl
  | some node =>
    simp only [found] at replaced
    split at replaced
    · cases replaced
      exact .unchanged rfl
    split at replaced
    · cases replaced
      exact .auths (state.authsOf_touchAuth session) rfl
    next nodeAcls fixed =>
      cases replaced
      exact ⟨.setACL rfl nodeAcls fixed _ (state.authsOf_touchAuth session) found, nofun, .nothing,
        fun _ => rfl⟩

theorem keeping_eq_returned {result : Result StoreState Response}
    (kept : result.keeping state = .returned (after, response, undo)) :
    after = state ∧ undo = .nothing ∧ result = .returned response := by
  cases result <;> simp [keeping] at kept
  simp [kept]

theorem process_spec (processed : state.process platform zxid session time request =
      .returned (after, response, undo)) :
    ProcessSpec zxid session time state request after response undo := by
  cases request with
  | create own =>
    simp only [process, returned.injEq] at processed
    exact create_spec processed
  | remove own => exact remove_spec processed
  | set own =>
    simp only [process, returned.injEq] at processed
    exact set_spec processed
  | setACL own =>
    rw [process, returned.injEq] at processed
    cases processed
    exact setACL_spec rfl
  | auth type scheme data =>
    simp only [process, StoreState.auth] at processed
    split at processed <;> cases processed <;> exact ⟨.nothing _, nofun, .nothing, fun _ => rfl⟩
  | list | getACL =>
    rcases keeping_eq_returned processed with ⟨rfl, rfl, _⟩
    exact .unchanged rfl
  | close | newSession | updateSession => cases processed
  | _ =>
    cases processed
    exact .unchanged rfl

theorem process_cases (processed : state.process platform zxid session time request =
      .returned (after, response, undo)) :
    Effect zxid session time state after undo ∨
      (∃ auths, after = { state with sessionAndAuth := auths }) ∨
      ∃ own node nodeAcls auths, request = .setACL own ∧ state.SameAuths auths ∧
        state.dataTree.lookup own.path = some node ∧
        after = state.replaceAcls auths own.path node nodeAcls := by
  have spec := process_spec processed
  by_cases legal : request.multiType.isSome
  · exact .inl (spec.effect legal)
  · have operation := spec.operation
    generalize request.change state response = change at operation
    cases operation with
    | nothing auths => exact .inr (.inl ⟨auths, rfl⟩)
    | @setACL own node isSetACL nodeAcls _ auths sameAuths found =>
      exact .inr (.inr ⟨own, node, nodeAcls, auths, isSetACL, sameAuths, found, rfl⟩)
    | create isOwn | remove isOwn | set isOwn => simp [isOwn, SingleRequest.multiType] at legal

theorem process_read (isRead : request.multiType = some .read)
    (processed : state.process platform zxid session time request =
      .returned (after, response, undo)) : after = state ∧ undo = .nothing := by
  cases request with
  | get | «exists» =>
    simp only [process] at processed
    cases processed
    exact ⟨rfl, rfl⟩
  | list kind path hasWatch =>
    rcases keeping_eq_returned processed with ⟨same, noUndo, _⟩
    exact ⟨same, noUndo⟩
  | _ => simp [SingleRequest.multiType] at isRead

theorem process_thrown {exception : Exception}
    (processed : state.process platform zxid session time request = .thrown exception after) :
    after = state := by
  cases request <;> simp [process] at processed
  case close => exact processed.2.symm
  case remove request =>
      unfold remove at processed
      repeat' split at processed
      all_goals cases processed
  case list kind path hasWatch =>
      cases listed : state.list kind path <;> simp [listed, keeping] at processed
      rename_i thrownState
      unfold list at listed
      repeat' split at listed
      all_goals cases listed
      exact processed.2.symm
  case getACL path =>
      cases listed : state.getACL path <;> simp [listed, keeping] at processed
      unfold getACL at listed
      repeat' split at listed
      all_goals cases listed
      exact processed.2.symm
  case newSession => exact processed.2.symm
  case updateSession => exact processed.2.symm

end StoreState

end

end RaftKeeper
