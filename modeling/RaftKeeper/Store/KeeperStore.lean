import RaftKeeper.Store.ACLMap
import RaftKeeper.Store.SessionManager
import RaftKeeper.Store.WatchManager

/-!
# The store

`StoreState` is the part of `KeeperStore` that a `StoreRequest` reads and writes; `KeeperStore` adds
the transaction counter, the sessions and the watches. The data tree, a two-level hash table, is a
finite map here. Nodes are shared pointers in the source, but no operation keeps one across a call,
so a node is a value.

A call may return, throw, run into undefined behaviour by dereferencing a null pointer or an end
iterator, or wait forever for a lock that its own thread holds.
-/

namespace RaftKeeper

/-- A node; its children are known by their names. -/
structure KeeperNode where
  data : Bytes := []
  aclId : ℕ := 0
  isEphemeral : Bool := false
  isSequential : Bool := false
  stat : Stat := {}
  children : Finset Bytes := ∅
deriving DecidableEq

/-- The stat that most responses carry: removals of children count in `cversion`, too. -/
def KeeperNode.statForResponse (node : KeeperNode) : Stat :=
  { node.stat with
    numChildren := Int32.ofNat node.children.card
    cversion := node.stat.cversion * 2 - node.stat.numChildren }

abbrev DataTree := Dict Bytes KeeperNode

/-- The part of the store that the operations read and write. -/
structure StoreState where
  dataTree : DataTree := ∅
  ephemerals : Dict Int64 (Finset Bytes) := ∅
  aclMap : ACLMap := {}
  sessionAndAuth : Dict Int64 AuthIDs := ∅
  superDigest : Bytes := []

/-- The whole store. -/
structure KeeperStore extends StoreState where
  zxid : Int64 := 0
  sessionManager : SessionManager
  watchManager : WatchManager := {}

/-- The exceptions that `processRequest` can throw. -/
inductive Exception
  /-- "Unknown ACL id {}. It's a bug" -/
  | unknownACL (number : ℕ)
  /-- "Illegal mixing of read and write operations in multi request" -/
  | illegalMixing
  /-- "Illegal command as part of multi ZooKeeper request {}" -/
  | illegalCommand (opnum : OpNum)
  /-- "Logical error: path cannot be empty" -/
  | emptyPath
  /-- "Unknown operation type {}" -/
  | unknownOperation (opnum : OpNum)
  /-- "Called process on close request" -/
  | calledProcessOnClose
  /-- "Got new ZXID {} smaller or equal than current {}. It's a bug" -/
  | zxidNotIncreasing (new current : Int64)
deriving DecidableEq

/-- How a call ends; `thrown` carries the state that the exception leaves behind. -/
inductive Result (σ α : Type)
  | returned (value : α)
  | thrown (exception : Exception) (state : σ)
  | crashed
  | blocked

/-- `session_and_auth.find(session_id)`, with no identities for an absent session. -/
def StoreState.authsOf (state : StoreState) (session : Int64) : AuthIDs :=
  (state.sessionAndAuth.lookup session).getD []

/-- The default entry that `session_and_auth[session_id]` leaves behind. -/
def StoreState.touchAuth (state : StoreState) (session : Int64) : StoreState :=
  { state with sessionAndAuth := state.sessionAndAuth.insert session (state.authsOf session) }

/-- `ephemerals[session_id]`, read as a set. -/
def ephemeralsOf (ephemerals : Dict Int64 (Finset Bytes)) (session : Int64) : Finset Bytes :=
  (ephemerals.lookup session).getD ∅

def addEphemeralNode (ephemerals : Dict Int64 (Finset Bytes)) (session : Int64) (path : Bytes) :
    Dict Int64 (Finset Bytes) :=
  ephemerals.insert session (insert path (ephemeralsOf ephemerals session))

def removeEphemeralNode (ephemerals : Dict Int64 (Finset Bytes)) (session : Int64)
    (path : Bytes) : Dict Int64 (Finset Bytes) :=
  ephemerals.insert session ((ephemeralsOf ephemerals session).erase path)

@[simp]
theorem ephemeralsOf_addEphemeralNode (ephemerals : Dict Int64 (Finset Bytes))
    (session other : Int64) (path : Bytes) :
    ephemeralsOf (addEphemeralNode ephemerals session path) other =
      if other = session then insert path (ephemeralsOf ephemerals session)
      else ephemeralsOf ephemerals other := by
  unfold addEphemeralNode
  rw [ephemeralsOf, Finmap.lookup_insert_ite]
  split <;> rfl

@[simp]
theorem ephemeralsOf_removeEphemeralNode (ephemerals : Dict Int64 (Finset Bytes))
    (session other : Int64) (path : Bytes) :
    ephemeralsOf (removeEphemeralNode ephemerals session path) other =
      if other = session then (ephemeralsOf ephemerals session).erase path
      else ephemeralsOf ephemerals other := by
  unfold removeEphemeralNode
  rw [ephemeralsOf, Finmap.lookup_insert_ite]
  split <;> rfl

@[simp]
theorem StoreState.authsOf_touchAuth (state : StoreState) (session other : Int64) :
    (state.touchAuth session).authsOf other = state.authsOf other := by
  simp only [touchAuth]
  rw [authsOf, Finmap.lookup_insert_ite]
  split
  · rename_i same
    rw [same]
    rfl
  · rfl

def checkACL (permission : Int32) (nodeAcls : ACLs) (sessionAuths : AuthIDs) : Bool :=
  nodeAcls.isEmpty ||
  sessionAuths.any (fun auth => auth.scheme = ascii "super") ||
  nodeAcls.any fun acl =>
    (acl.permissions &&& permission) ≠ 0 &&
      ((acl.scheme = ascii "world" && acl.id = ascii "anyone") ||
        sessionAuths.any fun auth => acl.scheme = auth.scheme && acl.id = auth.id)

/-- The loop of `fixupACL`; `none` is its early `return false`. -/
def fixupLoop (currentIds : AuthIDs) : ACLs → Bool → ACLs → Option (Bool × ACLs)
  | [], validFound, resultAcls => some (validFound, resultAcls)
  | acl :: rest, validFound, resultAcls =>
    if acl.scheme = ascii "auth" then
      fixupLoop currentIds rest (validFound || !currentIds.isEmpty)
        (resultAcls ++ currentIds.map fun auth => { acl with scheme := auth.scheme, id := auth.id })
    else if acl.scheme = ascii "world" ∧ acl.id = ascii "anyone" then
      fixupLoop currentIds rest true (resultAcls ++ [acl])
    else if acl.scheme = ascii "digest" then
      if acl.id.count 58 ≠ 1 then none else fixupLoop currentIds rest true (resultAcls ++ [acl])
    else fixupLoop currentIds rest validFound resultAcls

/-- `fixupACL`: the list to store, or `none` when the request's list is invalid. -/
def fixupACL (requestAcls : ACLs) (currentIds : AuthIDs) : Option ACLs :=
  if requestAcls = [] then some []
  else
    match fixupLoop currentIds requestAcls false [] with
    | some (true, resultAcls) => some resultAcls
    | some (false, _) | none => none

/-- The check that the `checkAuth` methods share, on the node at `path`. -/
def StoreState.checkAuthAt (state : StoreState) (session : Int64) (permission : Int32)
    (path : Bytes) : Except Exception Bool :=
  match state.dataTree.lookup path with
  | none => .ok true
  | some node =>
    match state.aclMap.convertNumber node.aclId with
    | none => .error (.unknownACL node.aclId)
    | some nodeAcls => .ok (checkACL permission nodeAcls (state.authsOf session))

/-- `StoreRequest::checkAuth` of a single request. -/
def StoreState.checkAuth (state : StoreState) (session : Int64) :
    SingleRequest → Except Exception Bool
  | .create request => state.checkAuthAt session ACL.create (getParentPath request.path)
  | .get path _ => state.checkAuthAt session ACL.read path
  | .remove request => state.checkAuthAt session ACL.delete (getParentPath request.path)
  | .set request => state.checkAuthAt session ACL.write request.path
  | .list _ path _ => state.checkAuthAt session ACL.read path
  | .check request => state.checkAuthAt session ACL.read request.path
  | .setACL request => state.checkAuthAt session ACL.admin request.path
  | .getACL path => state.checkAuthAt session (ACL.admin ||| ACL.read) path
  | .heartbeat | .setWatches _ | .sync _ | .auth .. | .close | .exists .. | .newSession _
  | .updateSession _ => .ok true

end RaftKeeper
