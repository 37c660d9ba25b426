import RaftKeeper.Common.Crc32
import RaftKeeper.ZooKeeper.Encode

/-!
# The format of a snapshot object

A snapshot is a sequence of object files (`SnapshotCommon.cpp`): the head magic and a version byte,
batches with length and CRC whose bodies list a type and the elements, the tail magic and a
checksum. The integers of the format are least significant byte first, those inside the elements in
network order. A file that is being written is the list of its batches with the running checksum.
-/

namespace RaftKeeper

open List

/-- `updateCheckSum`: the CRC of the two words one after the other. -/
def updateCheckSum (checksum dataCrc : UInt32) : UInt32 :=
  getCRC32 (littleEndian 4 checksum.toNat ++ littleEndian 4 dataCrc.toNat)

/-- The versions of the format. -/
inductive SnapshotVersion
  | v0
  | v1
  | v2
deriving DecidableEq

/-- What the elements of a batch are. -/
inductive SnapshotBatchType
  | data
  | dataEphemeral
  | config
  | server
  | session
  | stringMap
  | uintMap
  | aclMap
deriving DecidableEq

namespace SnapshotBatchType

def code : SnapshotBatchType → ℕ
  | data => 0
  | dataEphemeral => 1
  | config => 2
  | server => 3
  | session => 4
  | stringMap => 5
  | uintMap => 6
  | aclMap => 7

/-- The enumerator of a value; the others take the `default` branch of `parseBatchBodyV2`. -/
def ofCode (raw : Int32) : Option SnapshotBatchType :=
  match raw.toInt with
  | 0 => some data
  | 1 => some dataEphemeral
  | 2 => some config
  | 3 => some server
  | 4 => some session
  | 5 => some stringMap
  | 6 => some uintMap
  | 7 => some aclMap
  | _ => none

theorem code_lt (type : SnapshotBatchType) : type.code < 8 := by
  cases type <;> decide

theorem ofCode_code (type : SnapshotBatchType) : ofCode (Int32.ofNat type.code) = some type := by
  cases type <;> rfl

end SnapshotBatchType

/-- The exceptions of `loadLatestSnapshot`, and what it may run into instead of one. -/
inductive LoadError
  /-- "snapshot {} load magic error, version {}" -/
  | loadMagic
  /-- "Unsupported snapshot version {}" -/
  | unsupportedVersion
  /-- "snapshot {} checksum doesn't match" -/
  | checksumDoesntMatch
  /-- "Can't read snapshot object file {}, batch size {}, only {} could be read" -/
  | cantReadBatch
  /-- "Can't read snapshot object file {}, batch crc not match." -/
  | batchCrcNotMatch
  | read (error : ReadError)
  /-- `std::length_error`, from a negative size that is converted to `size_t`. -/
  | lengthError
  /-- "Snapshot is corrupted, can't parse the {}th node in batch" -/
  | cantParseNode (position : ℕ)
  /-- "Snapshot is corrupted, can't parse the {}th session in batch" -/
  | cantParseSession (position : ℕ)
  /-- "Snapshot is corrupted, can't parse the {}th acl in batch" -/
  | cantParseAcl (position : ℕ)
  /-- "Snapshot is corrupted, can't parse the {}th element of int_map in batch" -/
  | cantParseIntMap (position : ℕ)
  /-- "Loading snapshot objects error, expecting {} objects, got {} objects" -/
  | objectIncomplete (expecting got : ℕ)
  /-- "Error when filling data tree bucket {}, duplicated node {}" -/
  | duplicatedNode (path : Bytes)
  /-- "Can not find parent for node {}" -/
  | noParent (name : Bytes)
  /-- No exception: the code reads an uninitialised value or an end iterator. -/
  | undefinedBehaviour
deriving DecidableEq

def magicSnapshotHead : Bytes := ascii "SnapHead"

def magicSnapshotTail : Bytes := ascii "SnapTail"

/-- A batch: elements of one type. -/
structure SnapshotBatchBody where
  type : SnapshotBatchType := .data
  elements : List Bytes := []
deriving DecidableEq

namespace SnapshotBatchBody

def add (batch : SnapshotBatchBody) (element : Bytes) : SnapshotBatchBody :=
  { batch with elements := batch.elements ++ [element] }

def serializeElement (element : Bytes) : Bytes := littleEndian 4 element.length ++ element

def serialize (batch : SnapshotBatchBody) : Bytes :=
  littleEndian 4 batch.type.code ++ littleEndian 4 batch.elements.length ++
    batch.elements.flatMap serializeElement

def readInt : Reader LoadError Int32 :=
  (fun bytes => Int32.ofNat (ofLittleEndian bytes)) <$>
    Reader.takeStrict (fun read => .read (.cannotReadAllData read 4)) 4

def readElement : Reader LoadError Bytes := do
  let elementSize ← readInt
  if elementSize < 0 then throw .lengthError
  else
    let size := elementSize.toInt.toNat
    Reader.takeStrict (fun read => .read (.cannotReadAllData read size)) size

def parse : Reader LoadError (Option SnapshotBatchType × List Bytes) := do
  let type ← readInt
  let elementCount ← readInt
  if elementCount < 0 then throw .lengthError
  else
    let elements ← Reader.readTimes readElement elementCount.toInt.toNat
    pure (SnapshotBatchType.ofCode type, elements)

/-- What `saveBatchV2` writes before the body: `data_length` and `data_crc`. -/
def header (batch : SnapshotBatchBody) : Bytes :=
  littleEndian 4 batch.serialize.length ++ littleEndian 4 (getCRC32 batch.serialize).toNat

/-- `saveBatchV2`; only as many bytes of the body are written as the 32-bit length says. -/
def bytes (batch : SnapshotBatchBody) : Bytes :=
  batch.header ++ batch.serialize.take (batch.serialize.length % 2 ^ 32)

/-- The length of the batch fits its field and is not taken for a magic. -/
structure Fits (batch : SnapshotBatchBody) : Prop where
  short : batch.serialize.length < 2 ^ 32
  notHead : batch.header ≠ magicSnapshotHead
  notTail : batch.header ≠ magicSnapshotTail

def magicLength : ℕ := ofLittleEndian (ascii "Snap")

theorem fits_of_length_lt {batch : SnapshotBatchBody}
    (short : batch.serialize.length < magicLength) : batch.Fits := by
  have noMagic : ∀ rest : Bytes, batch.header ≠ ascii "Snap" ++ rest := by
    intro rest same
    have start := congrArg (take 4) same
    rw [header, take_left' (length_littleEndian 4 _), take_left' (by decide)] at start
    have lengths := congrArg ofLittleEndian start
    rw [ofLittleEndian_littleEndian (lt_trans short (by decide))] at lengths
    exact absurd short (not_lt.mpr lengths.ge)
  exact ⟨lt_trans short (by decide), noMagic (ascii "Head"), noMagic (ascii "Tail")⟩

theorem reads_readInt {value : ℕ} (bound : value < 2 ^ 32) :
    readInt.Reads (littleEndian 4 value) (Int32.ofNat value) := by
  have taken := Reader.reads_takeStrict
    (fun read => LoadError.read (.cannotReadAllData read 4)) (littleEndian 4 value)
  rw [length_littleEndian] at taken
  have mapped := taken.map fun bytes => Int32.ofNat (ofLittleEndian bytes)
  rwa [ofLittleEndian_littleEndian bound] at mapped

theorem not_ofNat_neg {size : ℕ} (bound : size < 2 ^ 31) : ¬ Int32.ofNat size < 0 := by
  rw [Int32.lt_iff_toInt_lt, Int32.toInt_ofNat_of_lt bound, Int32.toInt_zero]
  omega

theorem reads_readElement {element : Bytes} (bound : element.length < 2 ^ 31) :
    readElement.Reads (serializeElement element) element := by
  apply (reads_readInt (by omega)).bind
  rw [if_neg (not_ofNat_neg bound), Int32.toInt_ofNat_of_lt bound, Int.toNat_natCast]
  exact Reader.reads_takeStrict _ element

theorem length_elements_le (elements : List Bytes) :
    4 * elements.length ≤ (elements.flatMap serializeElement).length := by
  induction elements with
  | nil => exact le_rfl
  | cons element rest ih =>
    simp only [flatMap_cons, length_append, length_cons, serializeElement, length_littleEndian]
    omega

theorem reads_parse {batch : SnapshotBatchBody} (short : batch.serialize.length < 2 ^ 32)
    (sizes : ∀ element ∈ batch.elements, element.length < 2 ^ 31) :
    parse.Reads batch.serialize (some batch.type, batch.elements) := by
  have count := length_elements_le batch.elements
  simp only [serialize, length_append, length_littleEndian] at short
  have countFits : batch.elements.length < 2 ^ 31 := by omega
  have codeFits : batch.type.code < 2 ^ 32 := lt_trans batch.type.code_lt (by decide)
  rw [serialize, append_assoc, ← SnapshotBatchType.ofCode_code]
  apply (reads_readInt codeFits).bind
  apply (reads_readInt (by omega)).bind
  rw [if_neg (not_ofNat_neg countFits), Int32.toInt_ofNat_of_lt countFits, Int.toNat_natCast]
  apply Reader.Reads.last
  apply Reader.reads_readTimes
  intro element isMember
  exact reads_readElement (sizes element isMember)

end SnapshotBatchBody

/-- One file of a snapshot. -/
structure SnapshotObject where
  batches : List SnapshotBatchBody := []
  checksum : UInt32 := 0
deriving DecidableEq

namespace SnapshotObject

def saveBatchAndUpdateCheckSum (object : SnapshotObject) (batch : SnapshotBatchBody) :
    SnapshotObject where
  batches := object.batches ++ [batch]
  checksum := updateCheckSum object.checksum (getCRC32 batch.serialize)

def bytes (object : SnapshotObject) : Bytes :=
  magicSnapshotHead ++ [2] ++ object.batches.flatMap SnapshotBatchBody.bytes ++
    magicSnapshotTail ++ littleEndian 4 object.checksum.toNat

def elements (object : SnapshotObject) : List Bytes := object.batches.flatMap (·.elements)

/-- The checksum is that of the batches, which are of one type. -/
structure Sound (type : SnapshotBatchType) (object : SnapshotObject) : Prop where
  checksum : object.checksum =
    object.batches.foldl (fun current batch => updateCheckSum current (getCRC32 batch.serialize)) 0
  types : ∀ batch ∈ object.batches, batch.type = type ∨ batch = {}

theorem sound_empty (type : SnapshotBatchType) : Sound type {} where
  checksum := rfl
  types := by simp

variable {type : SnapshotBatchType} {object : SnapshotObject}

theorem elements_save (object : SnapshotObject) (batch : SnapshotBatchBody) :
    (object.saveBatchAndUpdateCheckSum batch).elements = object.elements ++ batch.elements := by
  simp [elements, saveBatchAndUpdateCheckSum]

theorem batches_save_ne_nil (object : SnapshotObject) (batch : SnapshotBatchBody) :
    (object.saveBatchAndUpdateCheckSum batch).batches ≠ [] := by
  simp [saveBatchAndUpdateCheckSum]

theorem Sound.save (sound : object.Sound type) {batch : SnapshotBatchBody}
    (typed : batch.type = type ∨ batch = {}) :
    (object.saveBatchAndUpdateCheckSum batch).Sound type where
  checksum := by
    simp only [saveBatchAndUpdateCheckSum, foldl_append, foldl_cons, foldl_nil, sound.checksum]
  types := by
    intro other isMember
    rcases mem_append.mp isMember with earlier | last
    · exact sound.types other earlier
    · rw [mem_singleton.mp last]
      exact typed

end SnapshotObject

end RaftKeeper
