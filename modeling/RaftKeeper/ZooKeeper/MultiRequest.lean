import RaftKeeper.Lib.Fallible
import RaftKeeper.ZooKeeper.Types

/-!
# The Multi of a client

The constructor of `ZooKeeperMultiRequest` takes the type of the operation from its requests, one
after the other. For a Check it takes `Read`, although the server takes a Check for a write, so a
list of writes with a Check is not of one type: with assertions it is refused, and without them
the last request decides.
-/

namespace RaftKeeper

open Except List OperationType

namespace SingleRequest

/-- The type that the constructor checks for a request; it throws for all others. -/
def genericType : SingleRequest → Option OperationType
  | create _ | remove _ | set _ => some write
  | check _ | get .. | .exists .. | list .simple .. => some read
  | _ => none

def isCheck : SingleRequest → Bool
  | check _ => true
  | _ => false

/-- The copy that goes into the Multi; `has_watch` is not part of a generic Get or Exists. -/
def concrete (defaultAcls : ACLs) : SingleRequest → SingleRequest
  | create request =>
    create { request with acls := if request.acls = [] then defaultAcls else request.acls }
  | get path _ => get path false
  | .exists path _ => .exists path false
  | other => other

end SingleRequest

/-- The ways in which a Multi is refused. -/
inductive MultiError
  | assertion
  | zbadarguments

/-- The loop of the constructor, in a build with or without assertions. -/
def addGeneric (asserts : Bool) (defaultAcls : ACLs) :
    OperationType → List SingleRequest → Except MultiError (OperationType × List Request)
  | operationType, [] => .ok (operationType, [])
  | operationType, generic :: rest =>
    match generic.genericType with
    | none => .error .zbadarguments
    | some type =>
      if asserts ∧ operationType ≠ unspecified ∧ operationType ≠ type then .error .assertion
      else (addGeneric asserts defaultAcls type rest).map fun made =>
        (made.1, .single (generic.concrete defaultAcls) :: made.2)

/-- `ZooKeeperMultiRequest::ZooKeeperMultiRequest`. -/
def Request.ofGeneric (asserts : Bool) (defaultAcls : ACLs) (requests : List SingleRequest) :
    Except MultiError Request :=
  (addGeneric asserts defaultAcls unspecified requests).map fun made => .multi made.1 made.2

variable {defaultAcls : ACLs} {requests : List SingleRequest} {operationType : OperationType}

theorem addGeneric_concat {last : SingleRequest} {type : OperationType}
    (typed : ∀ request ∈ requests, request.genericType.isSome)
    (isType : last.genericType = some type) :
    ∃ made, addGeneric false defaultAcls operationType (requests ++ [last]) = .ok (type, made) := by
  induction requests generalizing operationType with
  | nil => simp [addGeneric, isType, Except.map]
  | cons request rest ih =>
    rw [forall_mem_cons] at typed
    rcases Option.isSome_iff_exists.mp typed.1 with ⟨first, isFirst⟩
    rcases @ih first typed.2 with ⟨made, adds⟩
    simp [addGeneric, isFirst, adds, Except.map]

theorem addGeneric_uniform {type : OperationType} (asserts : Bool)
    (uniform : ∀ request ∈ requests, request.genericType = some type) :
    ∃ made, addGeneric asserts defaultAcls type requests = .ok (type, made) := by
  induction requests with
  | nil => exact ⟨[], rfl⟩
  | cons request rest ih =>
    rw [forall_mem_cons] at uniform
    rcases ih uniform.2 with ⟨made, adds⟩
    simp [addGeneric, uniform.1, adds, Except.map]

theorem uniform_of_addGeneric {made : OperationType × List Request}
    (specified : operationType ≠ unspecified)
    (adds : addGeneric true defaultAcls operationType requests = .ok made) :
    ∀ request ∈ requests, request.genericType = some operationType := by
  induction requests generalizing made with
  | nil => simp
  | cons request rest ih =>
    rw [addGeneric] at adds
    split at adds
    · cases adds
    next type isType =>
      split at adds
      · cases adds
      next agrees =>
        have same : operationType = type := by simpa [specified] using agrees
        subst same
        rcases map_eq_ok_iff.mp adds with ⟨others, addsRest, _⟩
        exact forall_mem_cons.mpr ⟨isType, ih addsRest⟩

theorem ofGeneric_cons (asserts : Bool) {first : SingleRequest} {type : OperationType}
    (isType : first.genericType = some type) :
    Request.ofGeneric asserts defaultAcls (first :: requests) =
      (addGeneric asserts defaultAcls type requests).map fun made =>
        .multi made.1 (.single (first.concrete defaultAcls) :: made.2) := by
  simp only [Request.ofGeneric, addGeneric, isType, ne_eq, not_true_eq_false, false_and, and_false,
    if_false]
  cases addGeneric asserts defaultAcls type requests <;> rfl

/-- A list of writes and Checks is taken for a write if its last request is no Check, and passes the
assertions if none is; reads are taken for a read. -/
theorem ofGeneric_classifies (defaultAcls : ACLs) (requests : List SingleRequest) :
    ((∃ request ∈ requests, request.genericType = some write) →
      (∀ request ∈ requests, request.genericType = some write ∨ request.isCheck) →
        ((∃ made, Request.ofGeneric false defaultAcls requests = .ok made ∧
            made.getOpNum = .multi ∧ made.isReadRequest = false) ↔
          ∀ last ∈ requests.getLast?, last.isCheck = false) ∧
        ((∃ made, Request.ofGeneric true defaultAcls requests = .ok made) ↔
          ∀ request ∈ requests, request.isCheck = false)) ∧
    (requests ≠ [] →
      (∀ request ∈ requests, request.genericType = some read ∧ request.isCheck = false) →
        ∀ asserts, ∃ made, Request.ofGeneric asserts defaultAcls requests = .ok made ∧
          made.getOpNum = .multiRead) := by
  constructor
  · rintro ⟨change, isChange, writes⟩ each
    have typed : ∀ request ∈ requests,
        request.genericType = some (if request.isCheck then read else write) := by
      intro request isMember
      have isEither := each request isMember
      cases request with
      | check => rfl
      | _ => simpa [SingleRequest.isCheck] using isEither
    constructor
    · rcases eq_nil_or_concat' requests with rfl | ⟨front, last, rfl⟩
      · cases isChange
      rcases @addGeneric_concat defaultAcls front unspecified last _
        (fun request isMember => by rw [typed request (by simp [isMember])]; rfl)
        (typed last (by simp)) with ⟨made, adds⟩
      cases isCheck : last.isCheck <;>
        simp [Request.ofGeneric, adds, Except.map, isCheck, Request.getOpNum, Request.isReadRequest]
    · cases requests with
      | nil => cases isChange
      | cons first rest =>
        have isFirst := typed first mem_cons_self
        rw [ofGeneric_cons true isFirst]
        constructor
        · rintro ⟨made, builds⟩ request isMember
          rcases map_eq_ok_iff.mp builds with ⟨others, adds, _⟩
          have uniform : ∀ other ∈ first :: rest, other.genericType = _ :=
            forall_mem_cons.mpr ⟨isFirst, uniform_of_addGeneric (by split <;> decide) adds⟩
          rw [← uniform change isChange, writes] at uniform
          have same := (typed request isMember).symm.trans (uniform request isMember)
          simpa using same
        · intro noCheck
          rcases @addGeneric_uniform defaultAcls rest _ true (fun request isMember => by
            rw [typed request (by simp [isMember]), noCheck request (by simp [isMember]),
              ← noCheck first (by simp)]) with ⟨made, adds⟩
          rw [adds]
          exact ⟨_, rfl⟩
  · intro nonempty reads asserts
    cases requests with
    | nil => exact absurd rfl nonempty
    | cons first rest =>
      rw [forall_mem_cons] at reads
      rcases @addGeneric_uniform defaultAcls _ _ asserts fun request isMember =>
        (reads.2 request isMember).1 with ⟨made, adds⟩
      rw [ofGeneric_cons asserts reads.1.1, adds]
      exact ⟨_, rfl, rfl⟩

def setAndCheck : List SingleRequest :=
  [.set { path := ascii "/x", data := ascii "data" }, .check { path := ascii "/y" }]

/-- A Set with a Check is taken for a read, which one server answers without the others. -/
theorem setAndCheck_taken_for_read :
    (∃ made, Request.ofGeneric false [] setAndCheck = .ok made ∧
      made.getOpNum = .multiRead ∧ made.isReadRequest = true) ∧
    Request.ofGeneric true [] setAndCheck = .error .assertion :=
  ⟨⟨_, rfl, rfl, rfl⟩, rfl⟩

theorem ofGeneric_classifies_checkAndSet :
    (∃ made, Request.ofGeneric false [] setAndCheck.reverse = .ok made ∧
      made.getOpNum = .multi ∧ made.isReadRequest = false) ∧
    ∃ made, Request.ofGeneric true [] [.get (ascii "/x") false] = .ok made ∧
      made.getOpNum = .multiRead :=
  ⟨((ofGeneric_classifies [] setAndCheck.reverse).1 (by decide) (by decide)).1.mpr (by decide),
    (ofGeneric_classifies [] [.get (ascii "/x") false]).2 (by decide) (by decide) true⟩

end RaftKeeper
