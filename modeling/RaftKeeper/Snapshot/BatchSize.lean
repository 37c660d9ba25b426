import Mathlib.Algebra.Order.BigOperators.Group.List
import RaftKeeper.Snapshot.Writer

/-!
# The size of the batches

A batch holds at most `saveBatchSize` elements, so the bodies are short if any so many
entries of the store are short together. `ChunksShort` says that of a map.
-/

namespace RaftKeeper

open List SnapshotBatchBody SnapshotObject

namespace SnapshotBatchBody

def bodyLength (elements : List Bytes) : ℕ :=
  8 + (elements.map fun element => 4 + element.length).sum

theorem length_serialize (batch : SnapshotBatchBody) :
    batch.serialize.length = bodyLength batch.elements := by
  simp only [serialize, bodyLength, length_append, length_littleEndian, length_flatMap,
    serializeElement]

theorem bodyLength_le {elements : List Bytes} (size bound : ℕ) (few : elements.length ≤ size)
    (short : ∀ element ∈ elements, element.length ≤ bound) :
    bodyLength elements ≤ 8 + size * (4 + bound) := by
  have total := sum_le_card_nsmul (elements.map fun element => 4 + element.length) (4 + bound)
    (by
      intro length isLength
      rcases mem_map.mp isLength with ⟨element, isElement, rfl⟩
      exact Nat.add_le_add_left (short element isElement) 4)
  rw [length_map] at total
  exact Nat.add_le_add_left (total.trans (Nat.mul_le_mul_right _ few)) 8

end SnapshotBatchBody

def SnapshotObject.BatchesWithin (size : ℕ) (object : SnapshotObject) : Prop :=
  ∀ batch ∈ object.batches, batch.elements.length ≤ size

namespace SnapshotObject

variable {size : ℕ} {object : SnapshotObject}

theorem batchesWithin_empty (size : ℕ) : BatchesWithin size {} := by
  simp [BatchesWithin]

theorem BatchesWithin.save (within : object.BatchesWithin size) {batch : SnapshotBatchBody}
    (few : batch.elements.length ≤ size) :
    (object.saveBatchAndUpdateCheckSum batch).BatchesWithin size := by
  intro other isMember
  rcases mem_append.mp isMember with earlier | last
  · exact within other earlier
  · rw [mem_singleton.mp last]
    exact few

theorem elements_sublist {objects : List SnapshotObject} (isObject : object ∈ objects)
    {batch : SnapshotBatchBody} (isBatch : batch ∈ object.batches) :
    batch.elements.Sublist (objects.flatMap elements) := by
  have inObject : batch.elements.Sublist object.elements :=
    sublist_flatten_of_mem (mem_map_of_mem isBatch)
  exact inObject.trans (sublist_flatten_of_mem (mem_map_of_mem isObject))

end SnapshotObject

/-- A batch has no more elements than were processed since it was begun. -/
structure BatchCounter (saveBatchSize processed elements : ℕ) : Prop where
  bound : elements ≤ saveBatchSize
  counted : processed % saveBatchSize ≠ 0 → elements ≤ processed % saveBatchSize
  start : processed = 0 → elements = 0

namespace BatchCounter

variable {saveBatchSize processed elements : ℕ}

theorem zero (saveBatchSize : ℕ) : BatchCounter saveBatchSize 0 0 :=
  ⟨Nat.zero_le _, fun _ => Nat.zero_le _, fun _ => rfl⟩

theorem next (positive : 0 < saveBatchSize)
    (bound : elements ≤ processed % saveBatchSize) :
    BatchCounter saveBatchSize (processed + 1) (elements + 1) := by
  have below := Nat.mod_lt processed positive
  refine ⟨by omega, ?_, by omega⟩
  intro inside
  rw [Nat.add_mod] at inside ⊢
  by_cases single : saveBatchSize = 1
  · simp [single, Nat.mod_one] at inside
  · rw [Nat.mod_eq_of_lt (a := 1) (by omega)] at inside ⊢
    by_cases full : processed % saveBatchSize + 1 = saveBatchSize
    · simp [full] at inside
    · rw [Nat.mod_eq_of_lt (by omega)]
      omega

theorem place (counter : BatchCounter saveBatchSize processed elements)
    (unflushed : ¬ (processed % saveBatchSize = 0 ∧ processed ≠ 0)) :
    elements ≤ processed % saveBatchSize := by
  by_cases boundary : processed % saveBatchSize = 0
  · have isStart : processed = 0 := by
      by_contra later
      exact unflushed ⟨boundary, later⟩
    rw [counter.start isStart]
    exact Nat.zero_le _
  · exact counter.counted boundary

end BatchCounter

/-- No batch is larger than the setting allows. -/
structure ElementWriter.Within (saveBatchSize : ℕ) (writer : ElementWriter) : Prop where
  out : writer.out.BatchesWithin saveBatchSize
  batch : BatchCounter saveBatchSize writer.index writer.batch.elements.length

theorem ElementWriter.Within.append {saveBatchSize : ℕ} {writer : ElementWriter}
    (within : writer.Within saveBatchSize) (positive : 0 < saveBatchSize)
    (type : SnapshotBatchType) (element : Bytes) :
    (writer.append type saveBatchSize element).Within saveBatchSize := by
  rw [ElementWriter.append]
  split
  · refine ⟨?_, .next positive (Nat.zero_le _)⟩
    split
    · exact within.out.save within.batch.bound
    · exact within.out
  · rename_i inside
    refine ⟨within.out, ?_⟩
    rw [add, length_append, length_singleton]
    exact .next positive (within.batch.counted inside)

theorem serializeElements_batchesWithin {saveBatchSize : ℕ} (positive : 0 < saveBatchSize)
    (type : SnapshotBatchType) (elements : List Bytes) :
    (serializeElements type saveBatchSize elements).BatchesWithin saveBatchSize := by
  have within : (elements.foldl (ElementWriter.append type saveBatchSize) {}).Within
      saveBatchSize := by
    refine foldlRecOn (motive := ElementWriter.Within saveBatchSize) elements _ ?_ ?_
    · exact ⟨batchesWithin_empty _, .zero _⟩
    · intro writer within element _
      exact within.append positive type element
  exact within.out.save within.batch.bound

namespace DataWriter

variable {settings : SnapshotSettings} {writer : DataWriter}

/-- No batch of nodes is larger than the setting allows. -/
structure Within (settings : SnapshotSettings) (writer : DataWriter) : Prop where
  objects : ∀ object ∈ writer.objects, object.BatchesWithin settings.saveBatchSize
  batch : BatchCounter settings.saveBatchSize writer.processed writer.batch.elements.length

theorem objects_flush_within (within : ∀ object ∈ writer.objects,
      object.BatchesWithin settings.saveBatchSize)
    (few : writer.batch.elements.length ≤ settings.saveBatchSize) :
    ∀ object ∈ writer.flush.objects, object.BatchesWithin settings.saveBatchSize := by
  intro object isMember
  rcases mem_append.mp isMember with earlier | isLast
  · exact within object (mem_append_left _ earlier)
  · rcases Option.map_eq_some_iff.mp (Option.mem_toList.mp isLast) with ⟨last, found, rfl⟩
    exact (within last (mem_append_right _ (Option.mem_toList.mpr found))).save few

theorem objects_openObject_within (within : ∀ object ∈ writer.objects,
      object.BatchesWithin settings.saveBatchSize) :
    ∀ object ∈ writer.openObject.objects, object.BatchesWithin settings.saveBatchSize := by
  intro object isMember
  rcases mem_append.mp isMember with earlier | isLast
  · exact within object earlier
  · rw [mem_singleton.mp isLast]
    exact batchesWithin_empty _

theorem Within.append (within : writer.Within settings) (positive : 0 < settings.saveBatchSize)
    (entry : Bytes × KeeperNode) : (writer.append settings entry).Within settings := by
  -- a new object starts with an empty batch or takes the batch with it
  have opened : ∃ opened : DataWriter,
      (∀ object ∈ opened.objects, object.BatchesWithin settings.saveBatchSize) ∧
      opened.batch.elements.length ≤ writer.batch.elements.length ∧
      opened =
        if writer.processed % settings.maxObjectNodeSize = 0 then
          if writer.processed / settings.maxObjectNodeSize ≠ 0 then writer.flush.openObject
          else writer.openObject
        else writer := by
    refine ⟨_, ?_, ?_, rfl⟩
    · split
      · split
        · exact objects_openObject_within (objects_flush_within within.objects within.batch.bound)
        · exact objects_openObject_within within.objects
      · exact within.objects
    · split
      · split
        · exact Nat.zero_le _
        · exact le_rfl
      · exact le_rfl
  rcases opened with ⟨opened, objects, notLonger, same⟩
  simp only [DataWriter.append, ← same]
  split
  · refine ⟨objects_flush_within objects (notLonger.trans within.batch.bound), ?_⟩
    exact .next positive (Nat.zero_le _)
  · rename_i unflushed
    refine ⟨objects, ?_⟩
    simp only [add, length_append, length_singleton]
    exact .next positive (notLonger.trans (within.batch.place unflushed))

theorem finish_within (positive : 0 < settings.saveBatchSize) {nodes : List (Bytes × KeeperNode)}
    {objects : List SnapshotObject}
    (finished : (nodes.foldl (DataWriter.append settings) {}).finish = some objects) :
    ∀ object ∈ objects, object.BatchesWithin settings.saveBatchSize := by
  have within : (nodes.foldl (DataWriter.append settings) {}).Within settings := by
    refine foldlRecOn (motive := Within settings) nodes _ ?_ ?_
    · exact ⟨by simp [DataWriter.objects], .zero _⟩
    · intro writer within entry _
      exact within.append positive entry
  have flushed := objects_flush_within within.objects within.batch.bound
  rcases Option.map_eq_some_iff.mp finished with ⟨last, found, rfl⟩
  intro object isMember
  apply flushed object
  rw [DataWriter.objects, found]
  exact isMember

end DataWriter

/-- Any `size` entries of the map, as elements of one batch, are shorter than a magic length. -/
def ChunksShort {α β : Type} [DecidableEq α] (map : Dict α β) (encode : α × β → Bytes)
    (size : ℕ) : Prop :=
  ∀ chunk : List (α × β), (chunk.map Prod.fst).Nodup →
    (∀ entry ∈ chunk, map.lookup entry.1 = some entry.2) → chunk.length ≤ size →
      bodyLength (chunk.map encode) < magicLength

variable {α β : Type} [DecidableEq α] {map : Dict α β} {encode : α × β → Bytes} {size : ℕ}

theorem chunksShort_of_bound {bound : ℕ}
    (short : ∀ key value, map.lookup key = some value → (encode (key, value)).length ≤ bound)
    (small : 8 + size * (4 + bound) < magicLength) :
    ChunksShort map encode size := by
  intro chunk _ entries few
  apply lt_of_le_of_lt (bodyLength_le size bound ?_ ?_) small
  · rwa [length_map]
  · intro element isElement
    rcases mem_map.mp isElement with ⟨⟨key, value⟩, isEntry, rfl⟩
    exact short key value (entries _ isEntry)

theorem ChunksShort.fits (short : ChunksShort map encode size) {entries : List (α × β)}
    (lists : map.Lists entries) (objects : List SnapshotObject)
    (elements : objects.flatMap SnapshotObject.elements = entries.map encode)
    (within : ∀ object ∈ objects, object.BatchesWithin size) :
    ∀ object ∈ objects, ∀ batch ∈ object.batches, batch.Fits := by
  intro object isObject batch isBatch
  have part := elements_sublist isObject isBatch
  rw [elements] at part
  rcases sublist_map_iff.mp part with ⟨chunk, isPart, same⟩
  apply fits_of_length_lt
  rw [length_serialize, same]
  apply short
  · exact lists.nodup.sublist (isPart.map _)
  · exact fun entry isEntry => (lists.mem_iff _ _).mp (isPart.subset isEntry)
  · have few := within object isObject batch isBatch
    rwa [same, length_map] at few

end RaftKeeper
