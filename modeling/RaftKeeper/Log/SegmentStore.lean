import RaftKeeper.Lib.Enumeration
import RaftKeeper.Lib.Fallible
import RaftKeeper.Log.Segment

/-!
# The segments of a log

`LogSegmentStore`: the closed segments in order, the open segment, and the range of the indexes. The
calls are computations over the store that keep the state of an exception. The directory is part of
the store; a restart begins with the directory only.
-/

namespace RaftKeeper

open NuRaftLogSegment

/-- `LogSegmentStore`, with the files of its directory. -/
structure LogSegmentStore where
  maxLogSegmentFileSize : ℕ
  firstLogIndex : ℕ
  lastLogIndex : ℕ
  openSegment : Option NuRaftLogSegment
  closedSegments : List NuRaftLogSegment
  files : Directory
deriving DecidableEq

abbrev StoreCall := EStateM LogError LogSegmentStore

/-- The store after a call, whether it throws or not. -/
def StoreCall.leaves {α : Type} (call : StoreCall α) (store : LogSegmentStore) : LogSegmentStore :=
  match call store with
  | .ok _ after => after
  | .error _ after => after

namespace LogSegmentStore

/-- `openNewSegmentIfNeeded` finds room in the open segment. -/
def keepsOpenSegment (store : LogSegmentStore) : Bool :=
  store.openSegment.any fun segment =>
    segment.fileSize ≤ store.maxLogSegmentFileSize ∧ currentLogVersion ≤ segment.version

def closeOpenSegment (store : LogSegmentStore) : LogSegmentStore :=
  match store.openSegment with
  | none => store
  | some segment =>
    let closed := segment.close true store.files
    { store with
      files := closed.1
      closedSegments := store.closedSegments ++ [closed.2]
      openSegment := none }

def openNewSegmentIfNeeded (createTime : CreateTime) : StoreCall Unit := fun store =>
  if store.keepsOpenSegment then .ok () store
  else
    let closed := store.closeOpenSegment
    match create closed.files (closed.lastLogIndex + 1) createTime with
    | .error error => .error error closed
    | .ok (files, segment) => .ok () { closed with files, openSegment := some segment }

def appendToOpenSegment (entry : NuRaft.LogEntry) : StoreCall ℕ := fun store =>
  match store.openSegment with
  | none => .error .undefinedBehaviour store
  | some segment =>
    match segment.appendEntry store.files entry with
    | .error error => .error error store
    | .ok (files, appended) =>
      .ok appended.lastIndex
        { store with
          files
          openSegment := some appended
          lastLogIndex := appended.lastIndex }

def appendEntry (createTime : CreateTime) (entry : NuRaft.LogEntry) : StoreCall ℕ := do
  openNewSegmentIfNeeded createTime
  appendToOpenSegment entry

/-- `getSegment`; the loop keeps the last match. -/
def getSegment (store : LogSegmentStore) (index : ℕ) : Option NuRaftLogSegment :=
  if store.lastLogIndex < store.firstLogIndex then none
  else if index < store.firstLogIndex ∨ store.lastLogIndex < index then none
  else
    match store.openSegment.filter fun segment => segment.firstIndex ≤ index with
    | some segment => some segment
    | none =>
      (store.closedSegments.filter fun segment =>
        segment.firstIndex ≤ index ∧ index ≤ segment.lastIndex).getLast?

/-- `getEntry`; `none` is a null pointer. -/
def getEntry (store : LogSegmentStore) (index : ℕ) : Except LogError (Option NuRaft.LogEntry) :=
  match store.getSegment index with
  | none => .ok none
  | some segment => segment.getEntry store.files index

/-- `getVersion`; the segment is not checked to be there. -/
def getVersion (store : LogSegmentStore) (index : ℕ) : Except LogError LogVersion :=
  match store.getSegment index with
  | none => .error .undefinedBehaviour
  | some segment => .ok segment.version

def removeFiles (segments : List NuRaftLogSegment) (files : Directory) : Directory :=
  segments.foldl remove files

/-- `flush`, which makes the bytes of the open segment durable and returns its last index. -/
def flush (store : LogSegmentStore) : Except LogError ℕ :=
  match store.openSegment with
  | none => .error .noOpenSegment
  | some segment => if segment.segFd.isSome then .ok segment.lastIndex else .error .cannotFlush

/-- The end of the range when `last_log_index == 0 || (last_log_index - 1) < first_log_index`. -/
def staleLast (store : LogSegmentStore) : Bool :=
  store.lastLogIndex = 0 ∨ store.lastLogIndex - 1 < store.firstLogIndex

/-- Let the range begin with a segment that is kept, if it begins before the range. -/
def widenTo (segment : NuRaftLogSegment) (store : LogSegmentStore) : LogSegmentStore :=
  if segment.firstIndex < store.firstLogIndex then
    let widened := { store with firstLogIndex := segment.firstIndex }
    if widened.staleLast then { widened with lastLogIndex := segment.lastIndex } else widened
  else store

def removeBefore (firstIndexKept : ℕ) (store : LogSegmentStore) : LogSegmentStore :=
  let isRemoved := fun segment : NuRaftLogSegment => decide (segment.lastIndex < firstIndexKept)
  { store with
    closedSegments := store.closedSegments.filter fun segment => !isRemoved segment
    openSegment := store.openSegment.filter fun segment => !isRemoved segment
    files := removeFiles ((store.closedSegments ++ store.openSegment.toList).filter isRemoved)
      store.files }

/-- `LogSegmentStore::removeSegment`, which compacts the log. -/
def removeSegment (firstIndexKept : ℕ) (store : LogSegmentStore) : LogSegmentStore :=
  if firstIndexKept ≤ store.firstLogIndex then store
  else
    let kept := store.removeBefore firstIndexKept
    let widened := (kept.closedSegments ++ kept.openSegment.toList).foldl
      (fun store segment => store.widenTo segment) { kept with firstLogIndex := firstIndexKept }
    if widened.staleLast then { widened with lastLogIndex := widened.firstLogIndex - 1 }
    else widened

/-- The segment that the last index to keep belongs to: the last one that the loops see. -/
def lastSegment (lastIndexKept : ℕ) (store : LogSegmentStore) : Option NuRaftLogSegment :=
  let isLast := fun segment : NuRaftLogSegment =>
    decide (segment.firstIndex ≤ lastIndexKept ∧ lastIndexKept ≤ segment.lastIndex)
  (store.openSegment.filter isLast).or (store.closedSegments.filter isLast).getLast?

def removeAfter (lastIndexKept : ℕ) (store : LogSegmentStore) : LogSegmentStore :=
  let isRemoved := fun segment : NuRaftLogSegment => decide (lastIndexKept < segment.firstIndex)
  { store with
    closedSegments := store.closedSegments.filter fun segment => !isRemoved segment
    openSegment := store.openSegment.filter fun segment => !isRemoved segment
    files := removeFiles ((store.closedSegments ++ store.openSegment.toList).filter isRemoved)
      store.files }

/-- `truncateLog`; the flag says whether something happened. The segment that is truncated holds
the index, so neither of the checks after `truncate` fails. -/
def truncateLog (lastIndexKept : ℕ) : StoreCall Bool := fun store =>
  if store.lastLogIndex ≤ lastIndexKept then .ok false store
  else
    let kept := store.removeAfter lastIndexKept
    match store.lastSegment lastIndexKept with
    | none => .ok true { kept with lastLogIndex := lastIndexKept }
    | some segment =>
      let truncated := segment.truncate kept.files lastIndexKept
      let after :=
        { kept with
          files := truncated.2.1
          openSegment := some truncated.2.2
          closedSegments :=
            if segment.isOpen then kept.closedSegments else kept.closedSegments.dropLast }
      if !truncated.1 ∧ truncated.2.2.lastIndex ≠ lastIndexKept then .error .nothingRemoved after
      else .ok true { after with lastLogIndex := lastIndexKept }

def previousIndex (index : ℕ) : ℕ := if index = 0 then 2 ^ 64 - 1 else index - 1

def writeAt (createTime : CreateTime) (index : ℕ) (entry : NuRaft.LogEntry) : StoreCall Unit := do
  let _ ← truncateLog (previousIndex index)
  let store ← get
  if index = store.lastLogIndex + 1 then
    let _ ← appendEntry createTime entry
  else throw .outOfRange

def close (store : LogSegmentStore) : LogSegmentStore :=
  let closedOpen := store.openSegment.map (NuRaftLogSegment.close false store.files)
  let files := (closedOpen.map Prod.fst).getD store.files
  { store with
    files
    openSegment := none
    closedSegments := store.closedSegments.map fun segment => (segment.close false files).2 }

/-- The segments that the names in a directory announce. -/
structure Listing where
  openSegment : Option NuRaftLogSegment
  closedSegments : List NuRaftLogSegment

def Listing.add (listing : Listing) (file : Bytes) : Except LogError Listing :=
  if ¬ (ascii "log_").isPrefixOf file then .ok listing
  else
    match SegmentFileName.parse file with
    | none => .error .invalidFileName
    | some name =>
      let segment := ofFileName file name
      if segment.isOpen then
        if listing.openSegment.isSome then .error .manyOpen
        else .ok { listing with openSegment := some segment }
      else .ok { listing with closedSegments := listing.closedSegments ++ [segment] }

def sortSegments (segments : List NuRaftLogSegment) : List NuRaftLogSegment :=
  segments.insertionSort fun left right => left.firstIndex ≤ right.firstIndex

/-- `loadSegmentMetaData`; the checks against `prev_seg`, which is never set, are left out. -/
def loadSegmentMetaData (order : Enumeration Unit Bytes) (store : LogSegmentStore) :
    Except LogError LogSegmentStore := do
  let listing ← (order.list () store.files.keys).foldlM Listing.add ⟨none, []⟩
  let closedSegments := sortSegments listing.closedSegments
  let found := { store with openSegment := listing.openSegment, closedSegments }
  let ranged :=
    match listing.openSegment with
    | none => found
    | some segment =>
      { found with
        firstLogIndex := (closedSegments.head?.map (·.firstIndex)).getD segment.firstIndex
        lastLogIndex := segment.lastIndex }
  if closedSegments.any fun segment => segment.lastIndex < segment.firstIndex then
    .error .invalidSegment
  else .ok ranged

def loadOpenSegment (store : LogSegmentStore) : Except LogError LogSegmentStore :=
  match store.openSegment with
  | none => .ok store
  | some segment => do
      let loaded ← segment.load store.files
      if loaded.lastIndex < store.firstLogIndex then .error .emptyOpenSegment
      else .ok { store with openSegment := some loaded, lastLogIndex := loaded.lastIndex }

def loadSegments (store : LogSegmentStore) : Except LogError LogSegmentStore := do
  let closedSegments ← store.closedSegments.mapM (load store.files)
  let lastLogIndex := (store.closedSegments.getLast?.map (·.lastIndex)).getD store.lastLogIndex
  let loaded ← loadOpenSegment { store with closedSegments, lastLogIndex }
  .ok (if loaded.lastLogIndex = 0 then
    { loaded with lastLogIndex := loaded.firstLogIndex - 1 } else loaded)

/-- `LogSegmentStore::init`; the directory is listed in any order. -/
def init (order : Enumeration Unit Bytes) (maxLogSegmentFileSize : ℕ) (createTime : CreateTime)
    (files : Directory) : Except LogError LogSegmentStore := do
  let found ← loadSegmentMetaData order
    { maxLogSegmentFileSize
      firstLogIndex := 1
      lastLogIndex := 0
      openSegment := none
      closedSegments := []
      files }
  let loaded ← loadSegments found
  match openNewSegmentIfNeeded createTime loaded with
  | .ok _ store => .ok store
  | .error error _ => .error error

end LogSegmentStore

end RaftKeeper
