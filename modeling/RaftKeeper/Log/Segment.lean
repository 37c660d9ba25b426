import RaftKeeper.Common.Crc32
import RaftKeeper.Lib.Decimal
import RaftKeeper.Lib.File
import RaftKeeper.Lib.Finmap
import RaftKeeper.Lib.Reader

/-!
# A segment of the log

`NuRaftLogSegment`: a file with a header of nine bytes and one record for each entry, and the
offsets of the records in memory. The name of the file tells the first index and, once the segment
is closed, the last one. Entries go to the position of the descriptor, while the offset that is
remembered is the size of the file. Reads go by offset and take the file by its name.
-/

namespace RaftKeeper

open Decimal

/-- The files of the log directory by their names. -/
abbrev Directory := Dict Bytes Bytes

/-- The exceptions of the segment store. -/
inductive LogError
  /-- "Try to create a log segment but file {} already exists." -/
  | alreadyExists
  /-- "Log segment file {} does not exist." -/
  | doesntExist
  /-- "Append log but segment {} is not open." -/
  | notOpen
  /-- "Corrupted log segment file {}." and the other reports of `load`. -/
  | corrupted
  /-- "Fail to read header of log segment {}" -/
  | cannotRead
  /-- "Checking CRC32 failed for log segment {}." -/
  | crcFailed
  /-- "Fail to write log at {}, log store index range [{}, {}]." -/
  | outOfRange
  /-- "Invalid log segment fine name {}" -/
  | invalidFileName
  /-- "Find more than one open segment in {}" -/
  | manyOpen
  /-- "Invalid segment {}, first index {} > last index {}" -/
  | invalidSegment
  /-- "First log index {} > last index {} of open segment {}" -/
  | emptyOpenSegment
  /-- "Flush log segment store failed, open segment is nullptr." -/
  | noOpenSegment
  /-- "Fail to flush log segment {}" -/
  | cannotFlush
  /-- "Truncate log to last_index_kept {}, but nothing removed from log segment {}." -/
  | nothingRemoved
  /-- No exception: the code reads past the end of a vector. -/
  | undefinedBehaviour
deriving DecidableEq

/-- `nuraft::log_entry`; `buffer::alloc` refuses to allocate 2^31 bytes. -/
structure NuRaft.LogEntry where
  term : UInt64
  valType : UInt8
  data : Bytes
  fits : data.length + 1 < 2 ^ 31
deriving DecidableEq

theorem NuRaft.LogEntry.fits_nil : ([] : Bytes).length + 1 < 2 ^ 31 := by decide

namespace NuRaft.LogEntry

def serialize (entry : NuRaft.LogEntry) : Bytes := entry.valType :: entry.data

def header (index : ℕ) (entry : NuRaft.LogEntry) : Bytes :=
  littleEndian 8 entry.term.toNat ++ littleEndian 8 index ++
    (littleEndian 4 entry.serialize.length ++ littleEndian 4 (getCRC32 entry.serialize).toNat)

def record (index : ℕ) (entry : NuRaft.LogEntry) : Bytes := entry.header index ++ entry.serialize

def deserialize (term : UInt64) (body : Bytes) : Except LogError NuRaft.LogEntry :=
  match body with
  | [] => .error .undefinedBehaviour
  | valType :: data =>
    if fits : data.length + 1 < 2 ^ 31 then .ok { term, valType, data, fits }
    else .error .undefinedBehaviour

end NuRaft.LogEntry

/-- `LogEntryHeader`, without the index, which nobody reads. -/
structure LogEntryHeader where
  term : UInt64
  dataLength : ℕ
  dataCrc : UInt32

namespace LogEntryHeader

def headerSize : ℕ := 24

def parse (bytes : Bytes) : LogEntryHeader where
  term := UInt64.ofNat (ofLittleEndian (bytes.take 8))
  dataLength := ofLittleEndian ((bytes.drop 16).take 4)
  dataCrc := UInt32.ofNat (ofLittleEndian ((bytes.drop 20).take 4))

end LogEntryHeader

def underscore : UInt8 := 95

/-- The time in the name of a segment file. -/
structure CreateTime where
  text : Bytes
  nonempty : text ≠ []
  free : underscore ∉ text
deriving DecidableEq

/-- What `parseSegmentFileName` finds; an open segment has no last index. -/
structure SegmentFileName where
  firstIndex : ℕ
  lastIndex : Option ℕ
  createTime : CreateTime
deriving DecidableEq

namespace SegmentFileName

def fields (name : SegmentFileName) : List Bytes :=
  [ascii "log", decimal name.firstIndex, match name.lastIndex with
    | none => ascii "open"
    | some lastIndex => decimal lastIndex,
    name.createTime.text]

def print (name : SegmentFileName) : Bytes := joinWith underscore name.fields

def parse (fileName : Bytes) : Option SegmentFileName :=
  match splitInto underscore fileName with
  | [_, first, last, time] =>
    match ofDecimal first with
    | none => none
    | some firstIndex =>
      if free : time ≠ [] ∧ underscore ∉ time then
        let createTime : CreateTime := ⟨time, free.1, free.2⟩
        if last = ascii "open" then some { firstIndex, lastIndex := none, createTime }
        else (ofDecimal last).map fun lastIndex =>
          { firstIndex, lastIndex := some lastIndex, createTime }
      else none
  | _ => none

end SegmentFileName

/-- `LogVersion`, an enumeration over bytes that takes any byte of a file. -/
abbrev LogVersion := UInt8

def currentLogVersion : LogVersion := 1

def logMagic : Bytes := 0 :: ascii "RaftLog"

def magicAndVersionSize : ℕ := 9

def segmentHeader : Bytes := logMagic ++ [currentLogVersion]

/-- A segment in memory; its bytes are in the directory. -/
@[ext]
structure NuRaftLogSegment where
  firstIndex : ℕ
  lastIndex : ℕ
  isOpen : Bool
  /-- The position of the descriptor, if there is one. -/
  segFd : Option ℕ
  fileName : Bytes
  createTime : CreateTime
  fileSize : ℕ
  offsets : List ℕ
  version : LogVersion
deriving DecidableEq

namespace NuRaftLogSegment

def getOpenFileName (segment : NuRaftLogSegment) : Bytes :=
  SegmentFileName.print ⟨segment.firstIndex, none, segment.createTime⟩

def getClosedFileName (segment : NuRaftLogSegment) : Bytes :=
  SegmentFileName.print ⟨segment.firstIndex, some segment.lastIndex, segment.createTime⟩

def fresh (firstIndex : ℕ) (createTime : CreateTime) : NuRaftLogSegment where
  firstIndex
  lastIndex := firstIndex - 1
  isOpen := true
  segFd := some segmentHeader.length
  fileName := SegmentFileName.print ⟨firstIndex, none, createTime⟩
  createTime
  fileSize := magicAndVersionSize
  offsets := []
  version := currentLogVersion

def create (files : Directory) (firstIndex : ℕ) (createTime : CreateTime) :
    Except LogError (Directory × NuRaftLogSegment) :=
  let segment := fresh firstIndex createTime
  if (files.lookup segment.fileName).isSome then .error .alreadyExists
  else .ok (files.insert segment.fileName segmentHeader, segment)

def ofFileName (fileName : Bytes) (name : SegmentFileName) : NuRaftLogSegment where
  firstIndex := name.firstIndex
  lastIndex := name.lastIndex.getD (name.firstIndex - 1)
  isOpen := name.lastIndex.isNone
  segFd := none
  fileName := fileName
  createTime := name.createTime
  fileSize := 0
  offsets := []
  version := 255

def loadEntryHeader (content : Bytes) (offset : ℕ) : Except LogError LogEntryHeader :=
  let bytes := File.pread content offset LogEntryHeader.headerSize
  if bytes.length ≠ LogEntryHeader.headerSize then .error .cannotRead
  else .ok (LogEntryHeader.parse bytes)

/-- The loop of `load`: the offsets of the entries from `offset` on. -/
def loadOffsets (content : Bytes) : ℕ → ℕ → Except LogError (List ℕ)
  | 0, _ => .error .undefinedBehaviour
  | fuel + 1, offset =>
    if content.length ≤ offset then .ok []
    else do
      let header ← loadEntryHeader content offset
      let next := offset + (LogEntryHeader.headerSize + header.dataLength)
      if content.length < next then .error .corrupted
      else
        let rest ← loadOffsets content fuel next
        pure (offset :: rest)

def readHeader (content : Bytes) : Except LogError LogVersion :=
  let bytes := File.pread content 0 magicAndVersionSize
  if bytes.length ≠ magicAndVersionSize then .error .corrupted
  else if bytes.take 8 = logMagic then .ok (bytes.getD 8 0)
  else .ok 0

/-- `load`; a loop that has read all entries stands at the end of the file. -/
def load (files : Directory) (segment : NuRaftLogSegment) : Except LogError NuRaftLogSegment :=
  match files.lookup segment.fileName with
  | none => .error .doesntExist
  | some content => do
      let version ← readHeader content
      let offsets ← loadOffsets content (content.length + 1)
        (if version = 0 then 0 else magicAndVersionSize)
      let lastIndexRead := segment.firstIndex + offsets.length - 1
      if !segment.isOpen && lastIndexRead ≠ segment.lastIndex then .error .corrupted
      else
        .ok { segment with
          lastIndex := lastIndexRead
          segFd := some (if segment.isOpen then content.length else 0)
          fileSize := content.length
          offsets := segment.offsets ++ offsets
          version }

def asClosed (segment : NuRaftLogSegment) : NuRaftLogSegment :=
  { segment with segFd := none, isOpen := false, fileName := segment.getClosedFileName }

def close (isFull : Bool) (files : Directory) (segment : NuRaftLogSegment) :
    Directory × NuRaftLogSegment :=
  if !segment.isOpen then (files, { segment with segFd := none })
  else if isFull then
    (files.rename segment.getOpenFileName segment.getClosedFileName, segment.asClosed)
  else (files, { segment with segFd := none, isOpen := false })

def remove (files : Directory) (segment : NuRaftLogSegment) : Directory :=
  files.erase segment.fileName

/-- What a segment knows of its file after an entry is written at `position`. -/
def withEntry (position : ℕ) (entry : NuRaft.LogEntry) (segment : NuRaftLogSegment) :
    NuRaftLogSegment :=
  { segment with
    segFd := some (position + (entry.record (segment.lastIndex + 1)).length)
    offsets := segment.offsets ++ [segment.fileSize]
    fileSize := segment.fileSize + (LogEntryHeader.headerSize + entry.serialize.length)
    lastIndex := segment.lastIndex + 1 }

/-- `appendEntry`, without the update of `last_log_index`. -/
def appendEntry (files : Directory) (segment : NuRaftLogSegment) (entry : NuRaft.LogEntry) :
    Except LogError (Directory × NuRaftLogSegment) :=
  match segment.isOpen, segment.segFd with
  | true, some position =>
    .ok (files.modify segment.fileName fun content =>
        File.write content position (entry.record (segment.lastIndex + 1)),
      segment.withEntry position entry)
  | _, _ => .error .notOpen

def getEntryOffset (segment : NuRaftLogSegment) (index : ℕ) : Option ℕ :=
  if segment.lastIndex + 1 = segment.firstIndex ∨ segment.lastIndex < index ∨
      index < segment.firstIndex then none
  else some (segment.offsets.getD (index - segment.firstIndex) 0)

def loadEntry (content : Bytes) (offset : ℕ) : Except LogError NuRaft.LogEntry := do
  let header ← loadEntryHeader content offset
  let body := File.pread content (offset + LogEntryHeader.headerSize) header.dataLength
  if body.length ≠ header.dataLength then .error .corrupted
  else if getCRC32 body ≠ header.dataCrc then .error .crcFailed
  else NuRaft.LogEntry.deserialize header.term body

def getEntry (files : Directory) (segment : NuRaftLogSegment) (index : ℕ) :
    Except LogError (Option NuRaft.LogEntry) :=
  match files.lookup segment.fileName with
  | none => .error .doesntExist
  | some content =>
    match segment.getEntryOffset index with
    | none => .ok none
    | some offset => some <$> loadEntry content offset

/-- A closed segment that is opened again; its file is open at the start. -/
def asOpen (segment : NuRaftLogSegment) : NuRaftLogSegment :=
  { segment with segFd := some 0, isOpen := true, fileName := segment.getOpenFileName }

def reopenClosedSegment (files : Directory) (segment : NuRaftLogSegment) :
    Directory × NuRaftLogSegment :=
  if segment.isOpen then (files, segment)
  else (files.rename segment.getClosedFileName segment.getOpenFileName, segment.asOpen)

/-- What a segment knows of its file once that ends before the record of an index. -/
def keepTo (lastIndexKept : ℕ) (segment : NuRaftLogSegment) : NuRaftLogSegment :=
  let kept := lastIndexKept + 1 - segment.firstIndex
  let fileSizeToKeep := segment.offsets.getD kept 0
  { segment with
    segFd := some fileSizeToKeep
    offsets := segment.offsets.take kept
    lastIndex := lastIndexKept
    fileSize := fileSizeToKeep }

/-- `truncate`; the flag says whether something was removed. -/
def truncate (files : Directory) (segment : NuRaftLogSegment) (lastIndexKept : ℕ) :
    Bool × Directory × NuRaftLogSegment :=
  let reopened := reopenClosedSegment files segment
  if segment.lastIndex ≤ lastIndexKept then (false, reopened)
  else
    let kept := reopened.2.keepTo lastIndexKept
    (true, reopened.1.modify kept.fileName fun content => File.truncate content kept.fileSize, kept)

end NuRaftLogSegment

end RaftKeeper
