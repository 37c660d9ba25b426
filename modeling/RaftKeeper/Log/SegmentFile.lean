import RaftKeeper.Lib.IndexedLog
import RaftKeeper.Log.Segment

/-!
# What the file of a segment holds

A segment holds a list of entries if its file is the header followed by their records and if what it
knows of the file is right. `Holds` is kept by every operation, and `load` finds it again.
-/

namespace RaftKeeper

open Decimal List

namespace NuRaft.LogEntry

def size (entry : NuRaft.LogEntry) : ℕ := LogEntryHeader.headerSize + entry.serialize.length

@[simp]
theorem length_header (index : ℕ) (entry : NuRaft.LogEntry) :
    (entry.header index).length = LogEntryHeader.headerSize := by
  simp [header, LogEntryHeader.headerSize]

@[simp]
theorem length_record (index : ℕ) (entry : NuRaft.LogEntry) :
    (entry.record index).length = entry.size := by
  simp [record, size]

theorem serialize_length_lt (entry : NuRaft.LogEntry) : entry.serialize.length < 2 ^ 31 := by
  simpa [serialize] using entry.fits

@[simp]
theorem deserialize_serialize (entry : NuRaft.LogEntry) :
    deserialize entry.term entry.serialize = .ok entry := by
  rw [serialize, deserialize, dif_pos entry.fits]

theorem parse_header (index : ℕ) (entry : NuRaft.LogEntry) :
    LogEntryHeader.parse (entry.header index) =
      ⟨entry.term, entry.serialize.length, getCRC32 entry.serialize⟩ := by
  have lengthFits : entry.serialize.length < 256 ^ 4 := by
    have short := entry.serialize_length_lt
    omega
  have termFits : entry.term.toNat < 256 ^ 8 := entry.term.toNat_lt
  have crcFits : (getCRC32 entry.serialize).toNat < 256 ^ 4 := (getCRC32 entry.serialize).toNat_lt
  have term : (entry.header index).take 8 = littleEndian 8 entry.term.toNat := by
    rw [header, append_assoc, take_left' (length_littleEndian _ _)]
  have dataLength : ((entry.header index).drop 16).take 4 =
      littleEndian 4 entry.serialize.length := by
    rw [header, drop_left' (by simp), take_left' (length_littleEndian _ _)]
  have dataCrc : ((entry.header index).drop 20).take 4 =
      littleEndian 4 (getCRC32 entry.serialize).toNat := by
    rw [header, ← append_assoc, drop_left' (by simp), take_of_length_le (by simp)]
  simp [LogEntryHeader.parse, term, dataLength, dataCrc, ofLittleEndian_littleEndian termFits,
    ofLittleEndian_littleEndian lengthFits, ofLittleEndian_littleEndian crcFits]

end NuRaft.LogEntry

namespace SegmentFileName

theorem underscore_notMem_fields (name : SegmentFileName) :
    ∀ piece ∈ name.fields, underscore ∉ piece := by
  have digits : ∀ number, underscore ∉ decimal number := by
    intro number isMember
    have isDigit := isDigit_of_mem_decimal _ isMember
    revert isDigit
    decide
  intro piece isMember
  simp only [fields, mem_cons, not_mem_nil, or_false] at isMember
  rcases isMember with rfl | rfl | rfl | rfl
  · decide
  · exact digits _
  · split
    · decide
    · exact digits _
  · exact name.createTime.free

theorem decimal_ne_open (number : ℕ) : decimal number ≠ ascii "open" := by
  intro isOpen
  have isDigit := @isDigit_of_mem_decimal number 111 (by rw [isOpen]; decide)
  revert isDigit
  decide

@[simp]
theorem parse_print (name : SegmentFileName) : parse name.print = some name := by
  have split := splitInto_joinWith name.underscore_notMem_fields (by simp [fields])
    (by simpa [fields] using name.createTime.nonempty)
  rw [parse, print, split]
  rcases name with ⟨firstIndex, lastIndex, createTime⟩
  cases lastIndex with
  | none => simp [fields, createTime.nonempty, createTime.free]
  | some lastIndex => simp [fields, createTime.nonempty, createTime.free, decimal_ne_open]

theorem print_injective : Function.Injective print := by
  intro name other same
  have parsed := parse_print name
  rw [same, parse_print] at parsed
  exact (Option.some.inj parsed).symm

theorem isPrefixOf_print (name : SegmentFileName) :
    (ascii "log_").isPrefixOf name.print = true := by
  rcases name with ⟨firstIndex, lastIndex, createTime⟩
  rfl

end SegmentFileName

namespace NuRaftLogSegment

open LogEntryHeader (headerSize)
open NuRaft (LogEntry)

def records : ℕ → List LogEntry → Bytes
  | _, [] => []
  | index, entry :: rest => entry.record index ++ records (index + 1) rest

def offsetsFrom : ℕ → List LogEntry → List ℕ
  | _, [] => []
  | offset, entry :: rest => offset :: offsetsFrom (offset + entry.size) rest

def recordsSize (entries : List LogEntry) : ℕ := (entries.map LogEntry.size).sum

@[simp]
theorem recordsSize_nil : recordsSize [] = 0 := rfl

@[simp]
theorem recordsSize_cons (entry : LogEntry) (entries : List LogEntry) :
    recordsSize (entry :: entries) = entry.size + recordsSize entries := by
  simp [recordsSize]

@[simp]
theorem recordsSize_append (entries more : List LogEntry) :
    recordsSize (entries ++ more) = recordsSize entries + recordsSize more := by
  simp [recordsSize]

@[simp]
theorem length_records (index : ℕ) (entries : List LogEntry) :
    (records index entries).length = recordsSize entries := by
  induction entries generalizing index with
  | nil => rfl
  | cons entry rest ih => simp [records, ih]

theorem records_append (index : ℕ) (entries more : List LogEntry) :
    records index (entries ++ more) =
      records index entries ++ records (index + entries.length) more := by
  induction entries generalizing index with
  | nil => rfl
  | cons entry rest ih => simp [records, ih, Nat.add_assoc, Nat.add_comm 1]

theorem offsetsFrom_append (offset : ℕ) (entries more : List LogEntry) :
    offsetsFrom offset (entries ++ more) =
      offsetsFrom offset entries ++ offsetsFrom (offset + recordsSize entries) more := by
  induction entries generalizing offset with
  | nil => rfl
  | cons entry rest ih => simp [offsetsFrom, ih, Nat.add_assoc]

@[simp]
theorem length_offsetsFrom (offset : ℕ) (entries : List LogEntry) :
    (offsetsFrom offset entries).length = entries.length := by
  induction entries generalizing offset with
  | nil => rfl
  | cons entry rest ih => simp [offsetsFrom, ih]

theorem getD_offsetsFrom {offset : ℕ} {before after : List LogEntry} {entry : LogEntry} :
    (offsetsFrom offset (before ++ entry :: after)).getD before.length 0 =
      offset + recordsSize before := by
  simp [offsetsFrom_append, offsetsFrom]

theorem length_le_recordsSize (entries : List LogEntry) : entries.length ≤ recordsSize entries := by
  induction entries with
  | nil => exact le_rfl
  | cons entry rest ih =>
    have positive : 1 ≤ entry.size := by
      simp [LogEntry.size, headerSize]
      omega
    simp only [length_cons, recordsSize_cons]
    omega

theorem loadEntryHeader_record {before after : Bytes} {offset index : ℕ} {entry : LogEntry}
    (isOffset : before.length = offset) :
    loadEntryHeader (before ++ (entry.record index ++ after)) offset =
      .ok ⟨entry.term, entry.serialize.length, getCRC32 entry.serialize⟩ := by
  have header := @File.pread_append (entry.header index) before offset isOffset
    (entry.serialize ++ after)
  rw [LogEntry.length_header] at header
  simp [loadEntryHeader, LogEntry.record, header, LogEntry.parse_header]

theorem loadEntry_record {before after : Bytes} {offset index : ℕ} {entry : LogEntry}
    (isOffset : before.length = offset) :
    loadEntry (before ++ (entry.record index ++ after)) offset = .ok entry := by
  have body : File.pread (before ++ (entry.record index ++ after))
      (offset + headerSize) entry.serialize.length = entry.serialize := by
    have split : before ++ (entry.record index ++ after) =
        (before ++ entry.header index) ++ (entry.serialize ++ after) := by
      simp [LogEntry.record]
    rw [split]
    apply File.pread_append
    simp [isOffset]
  simp [loadEntry, loadEntryHeader_record isOffset, body, bind, Except.bind]

/-- A header, followed by as many bytes as it tells. -/
def IsRecord (bytes : Bytes) : Prop :=
  bytes.length = headerSize + (LogEntryHeader.parse (bytes.take headerSize)).dataLength

def startsFrom : ℕ → List Bytes → List ℕ
  | _, [] => []
  | offset, record :: rest => offset :: startsFrom (offset + record.length) rest

@[simp]
theorem length_startsFrom (offset : ℕ) (records : List Bytes) :
    (startsFrom offset records).length = records.length := by
  induction records generalizing offset with
  | nil => rfl
  | cons record rest ih => simp [startsFrom, ih]

theorem isRecord_record (index : ℕ) (entry : LogEntry) : IsRecord (entry.record index) := by
  rw [IsRecord, LogEntry.length_record, LogEntry.record,
    take_left' (LogEntry.length_header index entry), LogEntry.parse_header]
  rfl

theorem IsRecord.length_pos {record : Bytes} (isRecord : IsRecord record) : 0 < record.length := by
  rw [isRecord]
  exact Nat.add_pos_left (by decide) _

/-- A record tells its own length: none of two records is cut off the other. -/
theorem IsRecord.eq_nil {record more : Bytes} (isRecord : IsRecord record)
    (isLonger : IsRecord (record ++ more)) : more = [] := by
  have header : (record ++ more).take headerSize = record.take headerSize :=
    take_append_of_le_length (isRecord ▸ Nat.le_add_right _ _)
  rw [IsRecord, header, length_append, ← isRecord] at isLonger
  exact eq_nil_of_length_eq_zero (by omega)

section

variable {before rest : Bytes} {offset fuel : ℕ} (isOffset : before.length = offset)

include isOffset

theorem loadOffsets_record {record : Bytes} (isRecord : IsRecord record) :
    loadOffsets (before ++ (record ++ rest)) (fuel + 1) offset =
      (offset :: ·) <$> loadOffsets (before ++ record ++ rest) fuel (offset + record.length) := by
  have long : headerSize ≤ record.length := isRecord ▸ Nat.le_add_right _ _
  have header : File.pread (before ++ (record ++ rest)) offset headerSize =
      record.take headerSize := by
    rw [File.pread, drop_left' isOffset, take_append_of_le_length long]
  have length : (before ++ (record ++ rest)).length = offset + record.length + rest.length := by
    simp [isOffset, Nat.add_assoc]
  have positive : 0 < headerSize := by decide
  have size : headerSize +
      (LogEntryHeader.parse (record.take headerSize)).dataLength = record.length :=
    isRecord.symm
  rw [loadOffsets, if_neg (by omega), loadEntryHeader, header, length_take_of_le long,
    if_neg (by simp)]
  simp only [bind, Except.bind, size, length]
  rw [if_neg (by omega), append_assoc]
  cases loadOffsets (before ++ (record ++ rest)) fuel (offset + record.length) with
  | error | ok => rfl

theorem loadOffsets_stops (nonempty : rest ≠ [])
    (noRecord : ∀ record after, rest = record ++ after → ¬ IsRecord record) :
    loadOffsets (before ++ rest) (fuel + 1) offset = .error .cannotRead ∨
      loadOffsets (before ++ rest) (fuel + 1) offset = .error .corrupted := by
  have positive := length_pos_iff.mpr nonempty
  have length : (before ++ rest).length = offset + rest.length := by simp [isOffset]
  have header : File.pread (before ++ rest) offset headerSize = rest.take headerSize := by
    rw [File.pread, drop_left' isOffset]
  rw [loadOffsets, if_neg (by omega), loadEntryHeader, header]
  by_cases long : headerSize ≤ rest.length
  · right
    rw [length_take_of_le long, if_neg (by simp)]
    simp only [bind, Except.bind, length]
    rw [if_pos]
    by_contra inside
    have isRecord : IsRecord (rest.take (headerSize +
        (LogEntryHeader.parse (rest.take headerSize)).dataLength)) := by
      rw [IsRecord, length_take_of_le (by omega), take_take, Nat.min_eq_left (by omega)]
    exact noRecord _ _ (take_append_drop _ rest).symm isRecord
  · left
    rw [if_pos (by simp; omega)]
    rfl

theorem loadOffsets_flatten {records : List Bytes} (enough : records.flatten.length < fuel)
    (areRecords : ∀ record ∈ records, IsRecord record) :
    loadOffsets (before ++ records.flatten) fuel offset = .ok (startsFrom offset records) := by
  induction fuel generalizing before offset records with
  | zero => omega
  | succ fuel ih =>
    cases records with
    | nil => simp [loadOffsets, startsFrom, isOffset]
    | cons record others =>
      rw [forall_mem_cons] at areRecords
      have positive := areRecords.1.length_pos
      rw [flatten_cons, length_append] at enough
      have later := @ih (before ++ record) (offset + record.length) (by simp [isOffset]) others
        (by omega) areRecords.2
      rw [flatten_cons, loadOffsets_record isOffset areRecords.1, later]
      rfl

/-- With enough fuel the loop stops early only where no record follows. -/
theorem exists_flatten_or_stops (enough : rest.length < fuel) :
    (∃ records : List Bytes, rest = records.flatten ∧ ∀ record ∈ records, IsRecord record) ∨
      loadOffsets (before ++ rest) fuel offset = .error .cannotRead ∨
      loadOffsets (before ++ rest) fuel offset = .error .corrupted := by
  induction fuel generalizing before rest offset with
  | zero => omega
  | succ fuel ih =>
    by_cases nonempty : rest = []
    · exact .inl ⟨[], nonempty, by simp⟩
    by_cases isNext : ∃ record after, rest = record ++ after ∧ IsRecord record
    · rcases isNext with ⟨record, after, rfl, isRecord⟩
      have positive := isRecord.length_pos
      rw [length_append] at enough
      rw [loadOffsets_record isOffset isRecord]
      rcases @ih (before ++ record) after (offset + record.length) (by simp [isOffset])
        (by omega) with ⟨records, rfl, areRecords⟩ | stops | stops
      · exact .inl ⟨record :: records, rfl, forall_mem_cons.mpr ⟨isRecord, areRecords⟩⟩
      · exact .inr (.inl (by rw [stops]; rfl))
      · exact .inr (.inr (by rw [stops]; rfl))
    · push Not at isNext
      exact .inr (loadOffsets_stops isOffset nonempty isNext)

theorem loadOffsets_records {index : ℕ} {entries : List LogEntry} (enough : entries.length < fuel) :
    loadOffsets (before ++ records index entries) fuel offset =
      .ok (offsetsFrom offset entries) := by
  induction fuel generalizing before offset index entries with
  | zero => omega
  | succ fuel ih =>
    cases entries with
    | nil => simp [loadOffsets, records, offsetsFrom, isOffset]
    | cons entry others =>
      have later := @ih (before ++ entry.record index) (offset + (entry.record index).length)
        (by simp [isOffset]) (index + 1) others (by simpa using enough)
      rw [records, loadOffsets_record isOffset (isRecord_record index entry), later,
        LogEntry.length_record]
      rfl

end

def name (segment : NuRaftLogSegment) : SegmentFileName :=
  ⟨segment.firstIndex, if segment.isOpen then none else some segment.lastIndex, segment.createTime⟩

/-- The file of the segment has exactly these entries, and the segment knows where they begin. -/
structure Holds (files : Directory) (segment : NuRaftLogSegment) (entries : List LogEntry) : Prop
    where
  named : segment.fileName = segment.name.print
  content : files.lookup segment.fileName =
    some (segmentHeader ++ records segment.firstIndex entries)
  range : segment.lastIndex + 1 = segment.firstIndex + entries.length
  offsets : segment.offsets = offsetsFrom magicAndVersionSize entries
  fileSize : segment.fileSize = magicAndVersionSize + recordsSize entries
  version : segment.version = currentLogVersion

@[simp]
theorem length_segmentHeader : segmentHeader.length = magicAndVersionSize := by decide

namespace Holds

variable {files other : Directory} {segment : NuRaftLogSegment} {entries : List LogEntry}

section

variable (holds : segment.Holds files entries)

include holds

theorem congr (same : other.lookup segment.fileName = files.lookup segment.fileName) :
    segment.Holds other entries :=
  { holds with content := same.trans holds.content }

theorem fileName_of_isOpen (isOpen : segment.isOpen = true) :
    segment.fileName = segment.getOpenFileName := by
  simp [holds.named, name, isOpen, getOpenFileName]

theorem fileName_of_isClosed (isClosed : segment.isOpen = false) :
    segment.fileName = segment.getClosedFileName := by
  simp [holds.named, name, isClosed, getClosedFileName]

theorem length_content :
    (segmentHeader ++ records segment.firstIndex entries).length = segment.fileSize := by
  rw [holds.fileSize]
  simp

theorem split_content {position : ℕ} (inside : position < entries.length) :
    ∃ before entry after, entries = before ++ entry :: after ∧ before.length = position ∧
      files.lookup segment.fileName =
        some ((segmentHeader ++ records segment.firstIndex before) ++
          (entry.record (segment.firstIndex + before.length) ++
            records (segment.firstIndex + before.length + 1) after)) := by
  refine ⟨entries.take position, entries[position], entries.drop (position + 1), ?_, ?_, ?_⟩
  · rw [← drop_eq_getElem_cons, take_append_drop]
  · rw [length_take]
    omega
  · rw [holds.content, append_assoc, ← records.eq_2, ← records_append,
      ← drop_eq_getElem_cons, take_append_drop]

theorem getEntry (index : ℕ) :
    segment.getEntry files index = .ok ((IndexedLog.mk segment.firstIndex entries).get index) := by
  have range := holds.range
  by_cases inside : segment.firstIndex ≤ index ∧ index ≤ segment.lastIndex
  · have bound : index - segment.firstIndex < entries.length := by omega
    rcases holds.split_content bound with ⟨before, entry, after, split, position, content⟩
    have offset : segment.getEntryOffset index =
        some (magicAndVersionSize + recordsSize before) := by
      rw [getEntryOffset, if_neg (by omega), holds.offsets, ← position, split, getD_offsetsFrom]
    have loaded := @loadEntry_record (segmentHeader ++ records segment.firstIndex before)
      (records (segment.firstIndex + before.length + 1) after) _
      (segment.firstIndex + before.length) entry rfl
    rw [length_append, length_segmentHeader, length_records] at loaded
    have atIndex : (IndexedLog.mk segment.firstIndex entries).get index = some entry := by
      simp [IndexedLog.get, inside.1, split, ← position]
    rw [NuRaftLogSegment.getEntry, content, offset, atIndex]
    simp only [loaded]
    rfl
  · have offset : segment.getEntryOffset index = none := by
      rw [getEntryOffset, if_pos (by omega)]
    have absent : (IndexedLog.mk segment.firstIndex entries).get index = none := by
      rw [← Option.not_isSome_iff_eq_none, IndexedLog.get_isSome_iff, IndexedLog.next]
      simp
      omega
    rw [NuRaftLogSegment.getEntry, holds.content, offset, absent]

end

theorem fresh {firstIndex : ℕ} (positive : 0 < firstIndex) (createTime : CreateTime)
    (files : Directory) :
    (NuRaftLogSegment.fresh firstIndex createTime).Holds
      (files.insert (NuRaftLogSegment.fresh firstIndex createTime).fileName segmentHeader) [] where
  named := rfl
  content := by simp [records]
  range := by
    simp [NuRaftLogSegment.fresh]
    omega
  offsets := rfl
  fileSize := rfl
  version := rfl

theorem withEntry (holds : segment.Holds files entries) (isOpen : segment.isOpen = true)
    (entry : LogEntry) :
    (segment.withEntry segment.fileSize entry).Holds
      (files.modify segment.fileName fun content =>
        File.write content segment.fileSize (entry.record (segment.lastIndex + 1)))
      (entries ++ [entry]) where
  named := by
    rw [show (segment.withEntry segment.fileSize entry).fileName = segment.fileName from rfl,
      holds.named]
    simp [name, isOpen, NuRaftLogSegment.withEntry]
  content := by
    have written : File.write (segmentHeader ++ records segment.firstIndex entries)
        segment.fileSize (entry.record (segment.lastIndex + 1)) =
          segmentHeader ++ records segment.firstIndex (entries ++ [entry]) := by
      rw [← holds.length_content, File.write_end, records_append, holds.range]
      simp [records]
    simp [NuRaftLogSegment.withEntry, Finmap.lookup_modify, holds.content, written]
  range := by
    have range := holds.range
    simp [NuRaftLogSegment.withEntry]
    omega
  offsets := by
    simp [NuRaftLogSegment.withEntry, offsetsFrom_append, holds.offsets, holds.fileSize,
      offsetsFrom]
  fileSize := by
    simp [NuRaftLogSegment.withEntry, holds.fileSize, LogEntry.size, Nat.add_assoc]
  version := holds.version

theorem asClosed (holds : segment.Holds files entries) (isOpen : segment.isOpen = true) :
    segment.asClosed.Holds (files.rename segment.getOpenFileName segment.getClosedFileName)
      entries where
  __ := holds
  named := rfl
  content := by
    have found := holds.content
    rw [holds.fileName_of_isOpen isOpen] at found
    rw [Finmap.lookup_rename found]
    simp [NuRaftLogSegment.asClosed]

theorem asOpen (holds : segment.Holds files entries) (isClosed : segment.isOpen = false) :
    segment.asOpen.Holds (files.rename segment.getClosedFileName segment.getOpenFileName)
      entries where
  __ := holds
  named := rfl
  content := by
    have found := holds.content
    rw [holds.fileName_of_isClosed isClosed] at found
    rw [Finmap.lookup_rename found]
    simp [NuRaftLogSegment.asOpen]

theorem keepTo (holds : segment.Holds files entries) (isOpen : segment.isOpen = true)
    {lastIndexKept : ℕ} (lower : segment.firstIndex ≤ lastIndexKept + 1)
    (upper : lastIndexKept < segment.lastIndex) :
    (segment.keepTo lastIndexKept).Holds
      (files.modify segment.fileName fun content =>
        File.truncate content (segment.keepTo lastIndexKept).fileSize)
      (entries.take (lastIndexKept + 1 - segment.firstIndex)) := by
  have range := holds.range
  have inside : lastIndexKept + 1 - segment.firstIndex < entries.length := by omega
  rcases holds.split_content inside with ⟨before, entry, after, split, position, content⟩
  have taken : entries.take (lastIndexKept + 1 - segment.firstIndex) = before := by
    rw [split, ← position, take_left]
  have size : (segment.keepTo lastIndexKept).fileSize =
    magicAndVersionSize + recordsSize before := by
    simp only [NuRaftLogSegment.keepTo, holds.offsets, ← position]
    rw [split, getD_offsetsFrom]
  rw [taken]
  constructor
  · rw [show (segment.keepTo lastIndexKept).fileName = segment.fileName from rfl, holds.named]
    simp [name, isOpen, NuRaftLogSegment.keepTo]
  · rw [show (segment.keepTo lastIndexKept).fileName = segment.fileName from rfl,
      Finmap.lookup_modify, if_pos rfl, content, size, Option.map_some,
      File.truncate_append (by simp)]
    rfl
  · simp only [NuRaftLogSegment.keepTo]
    omega
  · simp only [NuRaftLogSegment.keepTo, holds.offsets, ← position]
    rw [split, offsetsFrom_append, take_left' (length_offsetsFrom _ _)]
  · exact size
  · exact holds.version

theorem readHeader (after : Bytes) : NuRaftLogSegment.readHeader (segmentHeader ++ after) =
    .ok currentLogVersion := by
  have header := @File.pread_append segmentHeader [] 0 rfl after
  rw [nil_append, length_segmentHeader] at header
  rw [NuRaftLogSegment.readHeader, header]
  decide

theorem load (holds : segment.Holds files entries) :
    (ofFileName segment.fileName segment.name).load files =
      .ok { segment with segFd := some (if segment.isOpen then segment.fileSize else 0) } := by
  have range := holds.range
  have enough : entries.length < segment.fileSize + 1 := by
    have shorter := length_le_recordsSize entries
    rw [holds.fileSize]
    omega
  have offsets := @loadOffsets_records segmentHeader magicAndVersionSize _ length_segmentHeader
    segment.firstIndex entries enough
  have content : files.lookup (ofFileName segment.fileName segment.name).fileName =
      some (segmentHeader ++ records segment.firstIndex entries) := holds.content
  have isOpen : (ofFileName segment.fileName segment.name).isOpen = segment.isOpen := by
    cases isOpen : segment.isOpen with
    | true | false => simp [ofFileName, name, isOpen]
  have lastIndex : (ofFileName segment.fileName segment.name).firstIndex + entries.length - 1 =
      segment.lastIndex := by
    simp only [ofFileName, name]
    omega
  have agrees : (!segment.isOpen && decide (segment.lastIndex ≠
      (ofFileName segment.fileName segment.name).lastIndex)) = false := by
    cases isOpen : segment.isOpen with
    | true => rfl
    | false => simp [ofFileName, name, isOpen]
  rw [NuRaftLogSegment.load, content]
  simp only [readHeader, bind, Except.bind, show currentLogVersion ≠ 0 by decide, if_false,
    holds.length_content, offsets, length_offsetsFrom, lastIndex, isOpen, agrees]
  simp only [Bool.false_eq_true, if_false, Except.ok.injEq]
  apply NuRaftLogSegment.ext
  case offsets => exact holds.offsets.symm
  case version => exact holds.version.symm
  all_goals rfl

end Holds

end NuRaftLogSegment

end RaftKeeper
