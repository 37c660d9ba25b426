import Mathlib.Algebra.BigOperators.Group.List.Basic
import RaftKeeper.ZooKeeper.Codec

/-!
# Writing values

The functions `Coordination::write` of `ZooKeeperIO.cpp`, and that `Coordination::read`
reads back what they write. Sizes are cast to `int32_t`, and the reader takes no string
or array of more than `MAX_STRING_OR_ARRAY_SIZE` elements, so the round trip of a string
holds up to that length.
-/

namespace RaftKeeper

open Int32 List

def writeInt32 (value : Int32) : Bytes := bigEndian 4 value.toUInt32.toNat

def writeInt64 (value : Int64) : Bytes := bigEndian 8 value.toUInt64.toNat

/-- `write(size_t)`, of a value below 2^64. -/
def writeUInt64 (value : ℕ) : Bytes := bigEndian 8 value

def writeBool (value : Bool) : Bytes := [if value then 1 else 0]

def writeString (value : Bytes) : Bytes := writeInt32 (Int32.ofNat value.length) ++ value

def writeVector {α : Type} (write : α → Bytes) (values : List α) : Bytes :=
  writeInt32 (Int32.ofNat values.length) ++ values.flatMap write

def ACL.toBytes (acl : ACL) : Bytes :=
  writeInt32 acl.permissions ++ writeString acl.scheme ++ writeString acl.id

def AuthID.toBytes (auth : AuthID) : Bytes := writeString auth.scheme ++ writeString auth.id

def Stat.toBytes (stat : Stat) : Bytes :=
  writeInt64 stat.czxid ++ writeInt64 stat.mzxid ++ writeInt64 stat.ctime ++
  writeInt64 stat.mtime ++ writeInt32 stat.version ++ writeInt32 stat.cversion ++
  writeInt32 stat.aversion ++ writeInt64 stat.ephemeralOwner ++ writeInt32 stat.dataLength ++
  writeInt32 stat.numChildren ++ writeInt64 stat.pzxid

namespace ZooReader

def uint64 : ZooReader ℕ := word 8

def authID : ZooReader AuthID := do
  let scheme ← string
  let id ← string
  pure { scheme, id }

def stat : ZooReader Stat := do
  let czxid ← int64
  let mzxid ← int64
  let ctime ← int64
  let mtime ← int64
  let version ← int32
  let cversion ← int32
  let aversion ← int32
  let ephemeralOwner ← int64
  let dataLength ← int32
  let numChildren ← int32
  let pzxid ← int64
  pure
    { czxid, mzxid, ctime, mtime, version, cversion, aversion, ephemeralOwner, dataLength,
      numChildren, pzxid }

theorem reads_word (width : ℕ) {value : ℕ} (bound : value < 256 ^ width) :
    (word width).Reads (bigEndian width value) value := by
  have taken :=
    Reader.reads_takeStrict (ReadError.cannotReadAllData · width) (bigEndian width value)
  rw [length_bigEndian] at taken
  have mapped := taken.map ofBigEndian
  rwa [ofBigEndian_bigEndian bound] at mapped

theorem reads_int32 (value : Int32) : int32.Reads (writeInt32 value) value := by
  have mapped := (reads_word 4 value.toUInt32.toNat_lt).map Int32.ofNat
  have same : Int32.ofNat value.toUInt32.toNat = value := by
    rcases value with ⟨⟨bits⟩⟩
    apply toBitVec_inj.mp
    simp only [toBitVec_ofNat', UInt32.toNat_ofBitVec, BitVec.ofNat_toNat, BitVec.setWidth_eq]
    rfl
  rwa [same] at mapped

theorem ofNat_toUInt64 (value : Int64) : Int64.ofNat value.toUInt64.toNat = value := by
  rcases value with ⟨⟨bits⟩⟩
  apply Int64.toBitVec_inj.mp
  simp only [Int64.toBitVec_ofNat', UInt64.toNat_ofBitVec, BitVec.ofNat_toNat, BitVec.setWidth_eq]
  rfl

theorem reads_int64 (value : Int64) : int64.Reads (writeInt64 value) value := by
  have mapped := (reads_word 8 value.toUInt64.toNat_lt).map Int64.ofNat
  rwa [ofNat_toUInt64] at mapped

theorem reads_bool (value : Bool) : bool.Reads (writeBool value) value := by
  intro rest
  cases value with
  | false | true => rfl

theorem toInt_ofNat_of_le {size : ℕ} (bound : size ≤ maxStringOrArraySize) :
    (Int32.ofNat size).toInt = size := by
  apply toInt_ofNat_of_lt
  simp only [maxStringOrArraySize] at bound
  omega

variable {value : Bytes}

theorem reads_string (bound : value.length ≤ maxStringOrArraySize) :
    string.Reads (writeString value) value := by
  have size := toInt_ofNat_of_le bound
  apply (reads_int32 _).bind
  have notAbsent : Int32.ofNat value.length ≠ -1 := by
    intro same
    rw [same] at size
    have negative : (-1 : Int32).toInt = -1 := by decide
    omega
  have notNegative : ¬ Int32.ofNat value.length < 0 := by
    rw [lt_iff_toInt_lt, size, toInt_zero]
    omega
  rw [if_neg notAbsent, if_neg notNegative, size, Int.toNat_natCast, if_neg (Nat.not_lt.mpr bound)]
  exact Reader.reads_takePadded value

theorem fails_string (long : maxStringOrArraySize < value.length) (bound : value.length < 2 ^ 31) :
    string.Fails (writeString value) .tooLargeStringSize := by
  have size : (Int32.ofNat value.length).toInt = value.length := toInt_ofNat_of_lt bound
  apply (reads_int32 _).bind_fails
  have notAbsent : Int32.ofNat value.length ≠ -1 := by
    intro same
    rw [same] at size
    have negative : (-1 : Int32).toInt = -1 := by decide
    omega
  have notNegative : ¬ Int32.ofNat value.length < 0 := by
    rw [lt_iff_toInt_lt, size, toInt_zero]
    omega
  rw [if_neg notAbsent, if_neg notNegative, size, Int.toNat_natCast, if_pos long]
  exact (Reader.fails_throw _).append value

theorem reads_vector {α : Type} {element : ZooReader α} {write : α → Bytes} {values : List α}
    (bound : values.length ≤ maxStringOrArraySize)
    (reads : ∀ value ∈ values, element.Reads (write value) value) :
    (vector element).Reads (writeVector write values) values := by
  have size := toInt_ofNat_of_le bound
  apply (reads_int32 _).bind
  have notNegative : ¬ Int32.ofNat values.length < 0 := by
    rw [lt_iff_toInt_lt, size, toInt_zero]
    omega
  rw [if_neg notNegative, size, Int.toNat_natCast, if_neg (Nat.not_lt.mpr bound)]
  exact Reader.reads_readTimes reads

end ZooReader

/-- The strings of an entry are short enough for the reader. -/
def ACL.Readable (acl : ACL) : Prop :=
  acl.scheme.length ≤ maxStringOrArraySize ∧ acl.id.length ≤ maxStringOrArraySize

def AuthID.Readable (auth : AuthID) : Prop :=
  auth.scheme.length ≤ maxStringOrArraySize ∧ auth.id.length ≤ maxStringOrArraySize

/-- A list that the reader takes back: neither the list nor a string in it is too long. -/
def ACLs.Readable (acls : ACLs) : Prop :=
  acls.length ≤ maxStringOrArraySize ∧ ∀ acl ∈ acls, acl.Readable

def AuthIDs.Readable (auths : AuthIDs) : Prop :=
  auths.length ≤ maxStringOrArraySize ∧ ∀ auth ∈ auths, auth.Readable

namespace ZooReader

theorem reads_acl {acl : ACL} (readable : acl.Readable) : ZooReader.acl.Reads acl.toBytes acl := by
  rw [ACL.toBytes, append_assoc]
  apply (reads_int32 _).bind
  apply (reads_string readable.1).bind
  apply Reader.Reads.last
  exact reads_string readable.2

variable {acls : ACLs}

theorem reads_acls (readable : acls.Readable) :
    (vector acl).Reads (writeVector ACL.toBytes acls) acls :=
  reads_vector readable.1 fun _ isMember => reads_acl (readable.2 _ isMember)

theorem reads_stat (value : Stat) : stat.Reads value.toBytes value := by
  simp only [Stat.toBytes, append_assoc]
  apply (reads_int64 _).bind
  apply (reads_int64 _).bind
  apply (reads_int64 _).bind
  apply (reads_int64 _).bind
  apply (reads_int32 _).bind
  apply (reads_int32 _).bind
  apply (reads_int32 _).bind
  apply (reads_int64 _).bind
  apply (reads_int32 _).bind
  apply (reads_int32 _).bind
  apply Reader.Reads.last
  exact reads_int64 _

theorem reads_uint64_mod (value : ℕ) : uint64.Reads (writeUInt64 value) (value % 2 ^ 64) := by
  have reads := reads_word 8 (Nat.mod_lt value (by decide : 0 < 256 ^ 8))
  rwa [bigEndian_mod] at reads

theorem string_readsIff {value : Bytes} (bound : value.length < 2 ^ 31) :
    string.ReadsIff (writeString value) value (value.length ≤ maxStringOrArraySize) :=
  ⟨reads_string, fun long => ⟨_, fails_string (Nat.not_le.mp long) bound⟩⟩

variable {α : Type} {write : α → Bytes} {values : List α}

theorem vector_readsIff {element : ZooReader α} {readable : α → Prop}
    (bound : values.length < 2 ^ 31)
    (elements : ∀ value ∈ values, element.ReadsIff (write value) value (readable value)) :
    (vector element).ReadsIff (writeVector write values) values
      (values.length ≤ maxStringOrArraySize ∧ ∀ value ∈ values, readable value) := by
  have size : (Int32.ofNat values.length).toInt = values.length := toInt_ofNat_of_lt bound
  rw [← true_and (_ ∧ _)]
  apply (reads_int32 _).always.bind
  have notNegative : ¬ Int32.ofNat values.length < 0 := by
    rw [lt_iff_toInt_lt, size, toInt_zero]
    omega
  rw [if_neg notNegative, size, Int.toNat_natCast]
  by_cases short : values.length ≤ maxStringOrArraySize
  · rw [if_neg (Nat.not_lt.mpr short), and_iff_right short]
    exact .readTimes elements
  · rw [if_pos (Nat.not_le.mp short)]
    exact ⟨fun both => absurd both.1 short, fun _ => ⟨_, (Reader.fails_throw _).append _⟩⟩

theorem writeVector_bounds (positive : ∀ value ∈ values, 0 < (write value).length)
    (bound : (writeVector write values).length < 2 ^ 31) :
    values.length < 2 ^ 31 ∧ ∀ value ∈ values, (write value).length < 2 ^ 31 := by
  rw [writeVector, length_append] at bound
  constructor
  · have counts : values.length ≤ (values.flatMap write).length := by
      rw [length_flatMap]
      have least := length_le_sum_of_one_le (values.map fun value => (write value).length)
        (forall_mem_map.mpr positive)
      rwa [length_map] at least
    omega
  · intro value isMember
    have within : (write value).length ≤ (values.flatMap write).length := by
      rw [flatMap_def]
      exact (sublist_flatten_of_mem (mem_map_of_mem isMember)).length_le
    omega

theorem acls_readsIff (bound : (writeVector ACL.toBytes acls).length < 2 ^ 31) :
    (vector acl).ReadsIff (writeVector ACL.toBytes acls) acls acls.Readable := by
  have bounds := writeVector_bounds (fun acl _ => by simp [ACL.toBytes, writeInt32]) bound
  refine vector_readsIff bounds.1 fun acl isMember => ?_
  have short := bounds.2 acl isMember
  simp only [ACL.toBytes, writeString, length_append] at short
  rw [ACL.toBytes, append_assoc, ← true_and acl.Readable]
  apply (reads_int32 _).always.bind
  apply (string_readsIff (by omega)).bind
  apply Reader.ReadsIff.last
  exact string_readsIff (by omega)

theorem authIDs_readsIff {auths : AuthIDs}
    (bound : (writeVector AuthID.toBytes auths).length < 2 ^ 31) :
    (vector authID).ReadsIff (writeVector AuthID.toBytes auths) auths auths.Readable := by
  have bounds := writeVector_bounds
    (fun auth _ => by simp [AuthID.toBytes, writeString, writeInt32]) bound
  refine vector_readsIff bounds.1 fun auth isMember => ?_
  have short := bounds.2 auth isMember
  simp only [AuthID.toBytes, writeString, length_append] at short
  apply (string_readsIff (by omega)).bind
  apply Reader.ReadsIff.last
  exact string_readsIff (by omega)

end ZooReader

end RaftKeeper
