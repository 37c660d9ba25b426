import Mathlib.Order.Lattice.Nat
import RaftKeeper.Snapshot.Loader

/-!
# Writing a snapshot

`KeeperSnapshotStore::createObjectsV2` walks the data tree from the root while the store stands
still; `createObjectsAsyncImpl` writes a `SnapTask`, a copy whose nodes are dumped bucket by bucket.
Both start a new object every `maxObjectNodeSize` nodes and a new batch every `saveBatchSize` nodes.
No result means that the writer does not return: it dereferences a null pointer, throws for an
object id that is no `int` or for an element that no buffer holds, or recurses without end.
-/

namespace RaftKeeper

open List SnapshotObject

open Nat

/-- The sizes of batches and objects. -/
structure SnapshotSettings where
  saveBatchSize : ℕ
  maxObjectNodeSize : ℕ

/-- The orders in which the tables are walked. -/
structure SnapshotOrder where
  children : Enumeration Bytes Bytes
  bucket : Enumeration ℕ Bytes
  sessions : Enumeration Unit Int64
  acls : Enumeration Unit ℕ
  intMap : Enumeration Unit Bytes

def serializeKeeperNode (entry : Bytes × KeeperNode) : Bytes :=
  writeString entry.1 ++ writeString entry.2.data ++ writeUInt64 entry.2.aclId ++
    writeBool entry.2.isEphemeral ++ writeBool entry.2.isSequential ++ entry.2.stat.toBytes

def serializeSession (sessionAndAuth : Dict Int64 AuthIDs) (entry : Int64 × Int64) : Bytes :=
  writeInt64 entry.1 ++ writeInt64 entry.2 ++
    writeVector AuthID.toBytes ((sessionAndAuth.lookup entry.1).getD [])

def serializeAcl (entry : ℕ × ACLs) : Bytes :=
  writeUInt64 entry.1 ++ writeVector ACL.toBytes entry.2

def serializeIntEntry (entry : Bytes × Int64) : Bytes :=
  writeString entry.1 ++ writeInt64 entry.2

/-- The variables of the loops of `serializeMapV2`, `serializeSessionsV2` and `serializeAclsV2`. -/
structure ElementWriter where
  out : SnapshotObject := {}
  batch : SnapshotBatchBody := {}
  index : ℕ := 0

def ElementWriter.append (type : SnapshotBatchType) (saveBatchSize : ℕ) (writer : ElementWriter)
    (element : Bytes) : ElementWriter :=
  if writer.index % saveBatchSize = 0 then
    { out :=
        if writer.index ≠ 0 then writer.out.saveBatchAndUpdateCheckSum writer.batch else writer.out
      batch := { type := type, elements := [element] }
      index := writer.index + 1 }
  else { writer with batch := writer.batch.add element, index := writer.index + 1 }

def serializeElements (type : SnapshotBatchType) (saveBatchSize : ℕ) (elements : List Bytes) :
    SnapshotObject :=
  let writer := elements.foldl (ElementWriter.append type saveBatchSize) {}
  writer.out.saveBatchAndUpdateCheckSum writer.batch

def serializeMap (settings : SnapshotSettings) (order : SnapshotOrder) (map : Dict Bytes Int64) :
    SnapshotObject :=
  serializeElements .uintMap settings.saveBatchSize
    ((order.intMap.entries () map).map serializeIntEntry)

def serializeSessions (settings : SnapshotSettings) (order : SnapshotOrder)
    (sessionAndTimeout : Dict Int64 Int64) (sessionAndAuth : Dict Int64 AuthIDs) :
    SnapshotObject :=
  serializeElements .session settings.saveBatchSize
    ((order.sessions.entries () sessionAndTimeout).map (serializeSession sessionAndAuth))

def serializeAcls (settings : SnapshotSettings) (order : SnapshotOrder) (numToAcl : Dict ℕ ACLs) :
    SnapshotObject :=
  serializeElements .aclMap settings.saveBatchSize
    ((order.acls.entries () numToAcl).map serializeAcl)

/-- The map that both writers put in the first object. -/
def countersMap (zxid sessionIdCounter : Int64) (objectCount : ℕ) : Dict Bytes Int64 :=
  (((∅ : Dict Bytes Int64).insert (ascii "ZXID") zxid).insert (ascii "SESSIONID")
    sessionIdCounter).insert (ascii "OBJECTCOUNT") (Int64.ofNat objectCount)

/-- The loop that writes the nodes: finished objects, the open one and its last batch. -/
structure DataWriter where
  closed : List SnapshotObject := []
  out : Option SnapshotObject := none
  batch : SnapshotBatchBody := {}
  processed : ℕ := 0

namespace DataWriter

def flush (writer : DataWriter) : DataWriter :=
  { writer with
    out := writer.out.map (·.saveBatchAndUpdateCheckSum writer.batch)
    batch := {} }

/-- Close the open object, if there is one, and open the next. -/
def openObject (writer : DataWriter) : DataWriter :=
  { writer with
    closed := writer.closed ++ writer.out.toList
    out := some {} }

/-- What both serializers do for a node. -/
def append (settings : SnapshotSettings) (writer : DataWriter) (entry : Bytes × KeeperNode) :
    DataWriter :=
  let opened :=
    if writer.processed % settings.maxObjectNodeSize = 0 then
      if writer.processed / settings.maxObjectNodeSize ≠ 0 then writer.flush.openObject
      else writer.openObject
    else writer
  let flushed :=
    if writer.processed % settings.saveBatchSize = 0 ∧ writer.processed ≠ 0 then opened.flush
    else opened
  { flushed with
    batch := flushed.batch.add (serializeKeeperNode entry)
    processed := writer.processed + 1 }

def finish (writer : DataWriter) : Option (List SnapshotObject) :=
  writer.flush.out.map fun last => writer.closed ++ [last]

end DataWriter

/-- `KeeperSnapshotStore::serializeNodeV2`; without fuel the recursion does not end. -/
def serializeNode (settings : SnapshotSettings) (order : SnapshotOrder) (tree : DataTree) :
    ℕ → DataWriter → Bytes → Option DataWriter
  | 0, _, _ => none
  | fuel + 1, writer, path =>
    match tree.lookup path with
    | none => some writer
    | some node =>
      (order.children.list path node.children).foldlM
        (fun current child => serializeNode settings order tree fuel current (childPath path child))
        (writer.append settings (path, node))

/--
More calls than can be nested in a walk that ends: a path grows by every call but one for
a child of the root with an empty name, which calls for the root again.
-/
def walkFuel (tree : DataTree) : ℕ := tree.keys.sup length + 2

def serializeDataTree (settings : SnapshotSettings) (order : SnapshotOrder) (tree : DataTree) :
    Option (List SnapshotObject) :=
  (serializeNode settings order tree (walkFuel tree) {} rootPath).bind DataWriter.finish

def KeeperNode.cloneWithoutChildren (node : KeeperNode) : KeeperNode := { node with children := ∅ }

/-- `KeeperStore::dumpDataTree`, the buckets one after the other. -/
def dumpDataTree (platform : Platform) (order : SnapshotOrder) (tree : DataTree) :
    List (Bytes × KeeperNode) :=
  (range dataTreeBucketNum).flatMap fun bucket =>
    (order.bucket.entriesOf bucket tree
      (tree.keys.filter fun path => platform.getBucketIndex path = bucket)).map fun entry =>
        (entry.1, entry.2.cloneWithoutChildren)

def serializeDataTreeAsync (settings : SnapshotSettings) (nodes : List (Bytes × KeeperNode)) :
    Option (List SnapshotObject) :=
  (nodes.foldl (DataWriter.append settings) {}).finish

/-- The objects are numbered from 1 on, and the number of the last is read back as an `int`. Every
element is written to a buffer of its own first. -/
def numberObjects (objects : List SnapshotObject) : Option (List SnapshotObject) :=
  if objects.length < 2 ^ 31 ∧
      ∀ object ∈ objects, ∀ element ∈ object.elements, (getBuffer element).isSome then some objects
  else none

/-- The synchronous writer, which walks the tree from the root. -/
def KeeperStore.createObjects (settings : SnapshotSettings) (order : SnapshotOrder)
    (store : KeeperStore) : Option (List SnapshotObject) :=
  let nodesCount := store.dataTree.keys.card
  if nodesCount = 0 then some []
  else
    let dataObjectCount :=
      nodesCount / settings.maxObjectNodeSize +
        (if nodesCount % settings.maxObjectNodeSize ≠ 0 then 1 else 0)
    let counters :=
      countersMap store.zxid store.sessionManager.sessionIdCounter (dataObjectCount + 3)
    (serializeDataTree settings order store.dataTree).bind fun dataObjects =>
      numberObjects
        (serializeMap settings order counters ::
          serializeSessions settings order store.sessionManager.sessionAndTimeout
            store.sessionAndAuth ::
          serializeAcls settings order store.aclMap.numToAcl :: dataObjects)

/-- The copy of the store that the asynchronous writer works on. -/
structure SnapTask where
  nextZxid : Int64
  nextSessionId : Int64
  nodesCount : ℕ
  sessionAndTimeout : Dict Int64 Int64
  aclMap : Dict ℕ ACLs
  sessionAndAuth : Dict Int64 AuthIDs
  bucketsNodes : List (Bytes × KeeperNode)

def SnapTask.make (platform : Platform) (order : SnapshotOrder) (store : KeeperStore) :
    SnapTask where
  nextZxid := store.zxid
  nextSessionId := store.sessionManager.sessionIdCounter
  nodesCount := store.dataTree.keys.card
  sessionAndTimeout := store.sessionManager.sessionAndTimeout
  aclMap := store.aclMap.numToAcl
  sessionAndAuth := store.sessionAndAuth
  bucketsNodes := dumpDataTree platform order store.dataTree

/-- The asynchronous writer, which has a copy of the buckets. -/
def SnapTask.createObjects (settings : SnapshotSettings) (order : SnapshotOrder)
    (task : SnapTask) : Option (List SnapshotObject) :=
  if task.nodesCount = 0 then some []
  else
    let dataObjectCount :=
      (task.nodesCount + settings.maxObjectNodeSize - 1) / settings.maxObjectNodeSize
    let counters := countersMap task.nextZxid task.nextSessionId (dataObjectCount + 3)
    (serializeDataTreeAsync settings task.bucketsNodes).bind fun dataObjects =>
      numberObjects
        (serializeMap settings order counters ::
          serializeSessions settings order task.sessionAndTimeout task.sessionAndAuth ::
          serializeAcls settings order task.aclMap :: dataObjects)

/-- These elements are written or in the batch. -/
structure ElementWriter.Wrote (type : SnapshotBatchType) (writer : ElementWriter)
    (done : List Bytes) : Prop where
  sound : writer.out.Sound type
  elements : writer.out.elements ++ writer.batch.elements = done
  typed : writer.batch.type = type ∨ (done = [] ∧ writer.batch = {})
  index : writer.index = done.length

variable {type : SnapshotBatchType} {writer : ElementWriter} {done : List Bytes}

theorem ElementWriter.Wrote.append (wrote : writer.Wrote type done) (saveBatchSize : ℕ)
    (element : Bytes) :
    (writer.append type saveBatchSize element).Wrote type (done ++ [element]) := by
  have length : (done ++ [element]).length = writer.index + 1 := by
    rw [length_append, length_singleton, wrote.index]
  by_cases atStart : writer.index = 0
  · have nothing : done = [] := length_eq_zero_iff.mp (wrote.index ▸ atStart)
    have empty := wrote.elements
    rw [nothing, append_eq_nil_iff] at empty
    simp only [ElementWriter.append, atStart, zero_mod, if_true, ne_eq, not_true_eq_false, if_false]
    exact ⟨wrote.sound, by simp [empty.1, nothing], .inl rfl, by simp [nothing]⟩
  · have typed : writer.batch.type = type := wrote.typed.resolve_right fun nothing =>
      atStart (by rw [wrote.index, nothing.1, length_nil])
    unfold ElementWriter.append
    split
    · refine ⟨wrote.sound.save (.inl typed), ?_, .inl rfl, length.symm⟩
      rw [SnapshotObject.elements_save, wrote.elements]
    · refine ⟨wrote.sound, ?_, .inl typed, length.symm⟩
      rw [← wrote.elements, append_assoc]
      rfl

theorem ElementWriter.Wrote.foldl (wrote : writer.Wrote type done) (saveBatchSize : ℕ)
    (elements : List Bytes) :
    (elements.foldl (ElementWriter.append type saveBatchSize) writer).Wrote type
      (done ++ elements) := by
  induction elements generalizing writer done with
  | nil => rwa [append_nil]
  | cons element rest ih =>
    have final := ih (wrote.append saveBatchSize element)
    rwa [append_assoc] at final

theorem serializeElements_spec (type : SnapshotBatchType) (saveBatchSize : ℕ)
    (elements : List Bytes) :
    (serializeElements type saveBatchSize elements).Sound type ∧
    (serializeElements type saveBatchSize elements).elements = elements ∧
    (serializeElements type saveBatchSize elements).batches ≠ [] := by
  have start : ElementWriter.Wrote type {} [] := 
    ⟨SnapshotObject.sound_empty type, rfl, .inr ⟨rfl, rfl⟩, rfl⟩
  have wrote := start.foldl saveBatchSize elements
  rw [nil_append] at wrote
  refine ⟨wrote.sound.save (wrote.typed.imp_right And.right), ?_, batches_save_ne_nil _ _⟩
  · rw [serializeElements, elements_save, wrote.elements]

def objectCount (maxObjectNodeSize nodesCount : ℕ) : ℕ :=
  nodesCount / maxObjectNodeSize + if nodesCount % maxObjectNodeSize ≠ 0 then 1 else 0

theorem objectCount_le (maxObjectNodeSize nodesCount : ℕ) :
    objectCount maxObjectNodeSize nodesCount ≤ nodesCount + 1 := by
  have quotient := Nat.div_le_self nodesCount maxObjectNodeSize
  rw [objectCount]
  split <;> omega

variable {maxObjectNodeSize : ℕ}

theorem objectCount_eq_ceil (positive : 0 < maxObjectNodeSize) (count : ℕ) :
    (count + maxObjectNodeSize - 1) / maxObjectNodeSize = objectCount maxObjectNodeSize count := by
  have below := Nat.mod_lt count positive
  have split := Nat.div_add_mod count maxObjectNodeSize
  have rearranged : count + maxObjectNodeSize - 1 =
      count % maxObjectNodeSize + (maxObjectNodeSize - 1) +
        maxObjectNodeSize * (count / maxObjectNodeSize) := by
    omega
  rw [rearranged, add_mul_div_left _ _ positive, objectCount, add_comm]
  congr 1
  split
  · exact Nat.div_eq_of_lt_le (by omega) (by omega)
  · exact div_eq_of_lt (by omega)

theorem objectCount_succ (positive : 0 < maxObjectNodeSize) (count : ℕ) :
    objectCount maxObjectNodeSize (count + 1) =
      objectCount maxObjectNodeSize count + if count % maxObjectNodeSize = 0 then 1 else 0 := by
  rw [← objectCount_eq_ceil positive, Nat.add_right_comm, Nat.add_sub_cancel,
    Nat.add_div_right _ positive, objectCount]
  by_cases aligned : count % maxObjectNodeSize = 0 <;> simp [aligned]

namespace DataWriter

def objects (writer : DataWriter) : List SnapshotObject := writer.closed ++ writer.out.toList

/-- These elements are in the objects or in the open batch. -/
structure Holds (writer : DataWriter) (elements : List Bytes) : Prop where
  sound : ∀ object ∈ writer.objects, object.Sound .data
  written : ∀ object ∈ writer.closed, object.batches ≠ []
  typed : writer.batch.type = .data
  elements : writer.objects.flatMap SnapshotObject.elements ++ writer.batch.elements = elements

variable {writer : DataWriter} {elements : List Bytes} {settings : SnapshotSettings}

theorem Holds.flush (holds : writer.Holds elements) (isOpen : writer.out.isSome) :
    writer.flush.Holds elements ∧ ∀ object ∈ writer.flush.objects, object.batches ≠ [] := by
  rcases Option.isSome_iff_exists.mp isOpen with ⟨last, found⟩
  have objects : writer.flush.objects =
      writer.closed ++ [last.saveBatchAndUpdateCheckSum writer.batch] := by
    simp [DataWriter.objects, DataWriter.flush, found]
  have before := holds.sound
  have all := holds.elements
  simp only [DataWriter.objects, found, Option.toList_some] at before all
  refine ⟨⟨?_, holds.written, rfl, ?_⟩, ?_⟩
  · rw [objects]
    intro object isMember
    rcases mem_append.mp isMember with earlier | isLast
    · exact before object (mem_append_left _ earlier)
    · rw [mem_singleton.mp isLast]
      exact (before last (by simp)).save (.inl holds.typed)
  · rw [objects, ← all]
    simp [elements_save, DataWriter.flush]
  · rw [objects]
    intro object isMember
    rcases mem_append.mp isMember with earlier | isLast
    · exact holds.written object earlier
    · rw [mem_singleton.mp isLast]
      exact batches_save_ne_nil _ _

theorem Holds.openObject (holds : writer.Holds elements)
    (written : ∀ object ∈ writer.objects, object.batches ≠ []) :
    writer.openObject.Holds elements := by
  refine ⟨?_, written, holds.typed, ?_⟩
  · intro object isMember
    rcases mem_append.mp isMember with earlier | isLast
    · exact holds.sound object earlier
    · rw [mem_singleton.mp isLast]
      exact SnapshotObject.sound_empty _
  · rw [← holds.elements]
    simp [DataWriter.objects, DataWriter.openObject, SnapshotObject.elements]

/-- These nodes are written, in as many objects as the settings say. -/
structure Wrote (settings : SnapshotSettings) (writer : DataWriter)
    (done : List (Bytes × KeeperNode)) : Prop where
  holds : writer.Holds (done.map serializeKeeperNode)
  processed : writer.processed = done.length
  isOpen : done ≠ [] → writer.out.isSome
  unopened : done = [] → writer.objects = []
  count : writer.objects.length = objectCount settings.maxObjectNodeSize done.length

theorem wrote_start (settings : SnapshotSettings) : Wrote settings {} [] where
  holds := ⟨by simp [DataWriter.objects], by simp, rfl, rfl⟩
  processed := rfl
  isOpen := by simp
  unopened _ := rfl
  count := by simp [objects, objectCount]

@[simp]
theorem length_objects_flush (writer : DataWriter) :
    writer.flush.objects.length = writer.objects.length := by
  cases found : writer.out <;> simp [objects, flush, found]

@[simp]
theorem isSome_out_flush (writer : DataWriter) :
    writer.flush.out.isSome = writer.out.isSome := Option.isSome_map

theorem length_objects_openObject (writer : DataWriter) :
    writer.openObject.objects.length = writer.objects.length + 1 := by
  simp [objects, openObject, add_assoc]

variable {done : List (Bytes × KeeperNode)}

theorem Wrote.opened (wrote : Wrote settings writer done)
    (positive : 0 < settings.maxObjectNodeSize) :
    ∃ opened : DataWriter, opened.Holds (done.map serializeKeeperNode) ∧ opened.out.isSome ∧
      opened.objects.length = objectCount settings.maxObjectNodeSize (done.length + 1) ∧
      opened =
        if writer.processed % settings.maxObjectNodeSize = 0 then
          if writer.processed / settings.maxObjectNodeSize ≠ 0 then writer.flush.openObject
          else writer.openObject
        else writer := by
  rw [objectCount_succ positive, ← wrote.processed]
  have count := wrote.count
  rw [← wrote.processed] at count
  by_cases nothing : done = []
  · have start : writer.processed = 0 := by rw [wrote.processed, nothing, length_nil]
    have written : ∀ object ∈ writer.objects, object.batches ≠ [] := by
      simp [wrote.unopened nothing]
    refine ⟨writer.openObject, wrote.holds.openObject written, rfl, ?_, by simp [start]⟩
    rw [length_objects_openObject, count]
    simp [start]
  · have isOpen := wrote.isOpen nothing
    by_cases boundary : writer.processed % settings.maxObjectNodeSize = 0
    · have notFirst : writer.processed / settings.maxObjectNodeSize ≠ 0 := by
        intro first
        have split := Nat.div_add_mod writer.processed settings.maxObjectNodeSize
        rw [first, boundary, wrote.processed] at split
        exact nothing (length_eq_zero_iff.mp (by simpa using split.symm))
      have flushed := wrote.holds.flush isOpen
      refine ⟨writer.flush.openObject, flushed.1.openObject flushed.2, rfl, ?_, by
        rw [if_pos boundary, if_pos notFirst]⟩
      rw [length_objects_openObject, length_objects_flush, count, if_pos boundary]
    · refine ⟨writer, wrote.holds, isOpen, ?_, by rw [if_neg boundary]⟩
      rw [count, if_neg boundary, add_zero]

theorem Wrote.append (wrote : Wrote settings writer done)
    (positive : 0 < settings.maxObjectNodeSize) (entry : Bytes × KeeperNode) :
    Wrote settings (writer.append settings entry) (done ++ [entry]) := by
  rcases wrote.opened positive with ⟨opened, openedHolds, isOpen, count, same⟩
  -- a flush may come before the element is added, to an empty batch too
  have ready : ∀ flushed : DataWriter, flushed.Holds (done.map serializeKeeperNode) →
      flushed.out.isSome → flushed.objects.length = opened.objects.length →
      Wrote settings
        { flushed with
          batch := flushed.batch.add (serializeKeeperNode entry)
          processed := writer.processed + 1 } (done ++ [entry]) := by
    intro flushed holds isOpen sameCount
    refine ⟨⟨holds.sound, holds.written, holds.typed, ?_⟩, ?_, fun _ => isOpen, by simp, ?_⟩
    · rw [map_append, ← holds.elements, append_assoc]
      rfl
    · rw [wrote.processed, length_append, length_singleton]
    · rw [length_append, length_singleton, ← count, ← sameCount]
      rfl
  simp only [DataWriter.append, ← same]
  split
  · exact ready opened.flush (openedHolds.flush isOpen).1 (by rwa [isSome_out_flush])
      (length_objects_flush opened)
  · exact ready opened openedHolds isOpen rfl

theorem Wrote.foldl (wrote : Wrote settings writer done)
    (positive : 0 < settings.maxObjectNodeSize) (nodes : List (Bytes × KeeperNode)) :
    Wrote settings (nodes.foldl (DataWriter.append settings) writer) (done ++ nodes) := by
  induction nodes generalizing writer done with
  | nil => rwa [append_nil]
  | cons entry rest ih =>
    have final := ih (wrote.append positive entry)
    rwa [append_assoc] at final

theorem Wrote.finish {nodes : List (Bytes × KeeperNode)} (wrote : Wrote settings writer nodes)
    (nonempty : nodes ≠ []) :
    ∃ objects, writer.finish = some objects ∧
      (∀ object ∈ objects, object.Sound .data ∧ object.batches ≠ []) ∧
      objects.flatMap SnapshotObject.elements = nodes.map serializeKeeperNode ∧
      objects.length = objectCount settings.maxObjectNodeSize nodes.length := by
  have isOpen := wrote.isOpen nonempty
  have flushed := wrote.holds.flush isOpen
  have result : writer.finish = some writer.flush.objects := by
    rcases Option.isSome_iff_exists.mp isOpen with ⟨last, found⟩
    simp [DataWriter.finish, DataWriter.objects, DataWriter.flush, found]
  refine ⟨writer.flush.objects, result, ?_, ?_, ?_⟩
  · exact fun object isMember => ⟨flushed.1.sound object isMember, flushed.2 object isMember⟩
  · rw [← flushed.1.elements]
    simp [DataWriter.flush]
  · rw [length_objects_flush, wrote.count]

theorem wrote_foldl (positive : 0 < settings.maxObjectNodeSize)
    (nodes : List (Bytes × KeeperNode)) :
    Wrote settings (nodes.foldl (DataWriter.append settings) {}) nodes :=
  (wrote_start settings).foldl positive nodes

end DataWriter

end RaftKeeper
