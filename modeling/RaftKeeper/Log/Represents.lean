import RaftKeeper.Log.Contiguous
import RaftKeeper.Log.SegmentStore

/-!
# What a store of segments represents

A store represents a log if its segments hold the entries one after the other, its directory has the
files of its segments and no others, and the open segment can be written to: the descriptor is at
the end of the file, or the file is so large that the next entry goes to a new segment anyway.
-/

namespace RaftKeeper

open Finmap List LogSegmentStore NuRaftLogSegment Option

open NuRaft (LogEntry)

/-- The directory has the files of the segments, one for each, and no others. -/
structure Tidy (files : Directory) (segments : List NuRaftLogSegment) : Prop where
  distinct : (segments.map (·.fileName)).Nodup
  noOther : ∀ fileName ∈ files, ∃ segment ∈ segments, segment.fileName = fileName

theorem lookup_removeFiles (segments : List NuRaftLogSegment) (files : Directory)
    (fileName : Bytes) :
    (removeFiles segments files).lookup fileName =
      if fileName ∈ segments.map (·.fileName) then none else files.lookup fileName := by
  induction segments generalizing files with
  | nil => simp [removeFiles]
  | cons segment rest ih =>
    rw [removeFiles, foldl_cons, ← removeFiles, ih, remove, lookup_erase_ite]
    by_cases isFirst : fileName = segment.fileName
    · simp [isFirst]
    · simp [isFirst]

namespace Tidy

variable {files : Directory} {segments before after : List NuRaftLogSegment}
  {segment other : NuRaftLogSegment}

theorem ne_of_mem (tidy : Tidy files (before ++ [segment])) (isMember : other ∈ before) :
    other.fileName ≠ segment.fileName := by
  have distinct := tidy.distinct
  rw [map_append, nodup_append] at distinct
  exact distinct.2.2 _ (mem_map_of_mem isMember) _ (by simp)

theorem insert (tidy : Tidy files segments) (absent : files.lookup segment.fileName = none)
    (present : ∀ other ∈ segments, other.fileName ∈ files) (content : Bytes) :
    Tidy (files.insert segment.fileName content) (segments ++ [segment]) where
  distinct := by
    rw [map_append, nodup_append]
    refine ⟨tidy.distinct, by simp, ?_⟩
    intro fileName isMember last isLast same
    rcases mem_map.mp isMember with ⟨other, isOther, rfl⟩
    have found := present other isOther
    rw [same, mem_singleton.mp isLast] at found
    exact lookup_eq_none.mp absent found
  noOther := by
    intro fileName isMember
    rcases mem_insert.mp isMember with rfl | isOld
    · exact ⟨segment, by simp, rfl⟩
    · rcases tidy.noOther fileName isOld with ⟨other, isOther, same⟩
      exact ⟨other, mem_append_left _ isOther, same⟩

theorem rename (tidy : Tidy files (before ++ [segment])) {content : Bytes}
    (found : files.lookup segment.fileName = some content)
    (absent : ∀ earlier ∈ before, earlier.fileName ≠ other.fileName) :
    Tidy (files.rename segment.fileName other.fileName) (before ++ [other]) where
  distinct := by
    have distinct := tidy.distinct
    rw [map_append, nodup_append] at distinct ⊢
    refine ⟨distinct.1, by simp, ?_⟩
    intro fileName isMember last isLast same
    rcases mem_map.mp isMember with ⟨earlier, isEarlier, rfl⟩
    exact absent earlier isEarlier (same.trans (mem_singleton.mp isLast))
  noOther := by
    intro fileName isMember
    rcases (mem_rename found).mp isMember with rfl | ⟨notOld, isOld⟩
    · exact ⟨other, by simp, rfl⟩
    · rcases tidy.noOther fileName isOld with ⟨earlier, isEarlier, rfl⟩
      rcases mem_append.mp isEarlier with isBefore | isLast
      · exact ⟨earlier, mem_append_left _ isBefore, rfl⟩
      · exact absurd (congrArg fileName (mem_singleton.mp isLast)) notOld

theorem modify (tidy : Tidy files (before ++ [segment])) (same : other.fileName = segment.fileName)
    (update : Bytes → Bytes) :
    Tidy (files.modify segment.fileName update) (before ++ [other]) where
  distinct := by simpa [same] using tidy.distinct
  noOther := by
    intro fileName isMember
    rcases tidy.noOther fileName (mem_modify.mp isMember) with ⟨earlier, isEarlier, rfl⟩
    rcases mem_append.mp isEarlier with isBefore | isLast
    · exact ⟨earlier, mem_append_left _ isBefore, rfl⟩
    · refine ⟨other, by simp, ?_⟩
      rw [same, mem_singleton.mp isLast]

theorem eq_of_fileName_eq (tidy : Tidy files segments) (isMember : segment ∈ segments)
    (isOther : other ∈ segments) (same : segment.fileName = other.fileName) : segment = other :=
  inj_on_of_nodup_map tidy.distinct isMember isOther same

section

variable (isRemoved : NuRaftLogSegment → Bool)

theorem lookup_removeFiles (tidy : Tidy files segments) (isMember : segment ∈ segments)
    (isKept : isRemoved segment = false) :
    (removeFiles (segments.filter isRemoved) files).lookup segment.fileName =
      files.lookup segment.fileName := by
  rw [RaftKeeper.lookup_removeFiles, if_neg]
  intro isName
  rcases mem_map.mp isName with ⟨other, isOther, same⟩
  rw [mem_filter] at isOther
  rw [tidy.eq_of_fileName_eq isOther.1 isMember same, isKept] at isOther
  simp at isOther

theorem removeFiles (tidy : Tidy files segments) :
    Tidy (removeFiles (segments.filter isRemoved) files)
      (segments.filter fun segment => !isRemoved segment) where
  distinct := tidy.distinct.sublist (filter_sublist.map _)
  noOther := by
    intro fileName isMember
    rw [← lookup_isSome, RaftKeeper.lookup_removeFiles] at isMember
    by_cases isGone : fileName ∈ (segments.filter isRemoved).map (·.fileName)
    · simp [isGone] at isMember
    · rw [if_neg isGone, lookup_isSome] at isMember
      rcases tidy.noOther fileName isMember with ⟨segment, isSegment, rfl⟩
      refine ⟨segment, ?_, rfl⟩
      rw [mem_filter]
      refine ⟨isSegment, ?_⟩
      rw [Bool.not_eq_true']
      apply Bool.eq_false_iff.mpr
      intro removed
      exact isGone (mem_map_of_mem (mem_filter.mpr ⟨isSegment, removed⟩))

end

end Tidy

namespace LogSegmentStore

/-- The segments in the order of their indexes; the open one is the last. -/
def segments (store : LogSegmentStore) : List NuRaftLogSegment :=
  store.closedSegments ++ store.openSegment.toList

/-- The segments hold the entries of the log one after another, and nothing else. -/
structure Represents (store : LogSegmentStore) (log : IndexedLog LogEntry) : Prop where
  positive : 0 < log.first
  chain : Contiguous store.files log.first store.segments log.entries
  tidy : Tidy store.files store.segments
  closed : ∀ segment ∈ store.closedSegments, segment.isOpen = false
  opened : ∀ segment ∈ store.openSegment, segment.isOpen = true
  writes : ∀ segment ∈ store.openSegment, segment.segFd = some segment.fileSize ∨
    store.maxLogSegmentFileSize < segment.fileSize
  first : store.firstLogIndex = log.first
  last : store.lastLogIndex + 1 = log.next

/-- What holds between calls: if the open segment is empty then no other one is, and without
an open segment there is none at all. -/
structure Settled (store : LogSegmentStore) : Prop where
  emptyLast : ∀ segment ∈ store.openSegment, segment.lastIndex < segment.firstIndex →
    ∀ closed ∈ store.closedSegments, closed.firstIndex ≤ closed.lastIndex
  noneOpen : store.openSegment = none → store.closedSegments = []

/-- The closed segments have no room for another entry. -/
def FullClosed (store : LogSegmentStore) : Prop :=
  ∀ segment ∈ store.closedSegments, store.maxLogSegmentFileSize < segment.fileSize

def NonemptyClosed (store : LogSegmentStore) : Prop :=
  ∀ segment ∈ store.closedSegments, segment.firstIndex ≤ segment.lastIndex

/-- Segments are closed only when they have no room for another entry. -/
def ClosesFull (store after : LogSegmentStore) : Prop :=
  ∀ segment ∈ after.closedSegments, segment ∈ store.closedSegments ∨
    store.maxLogSegmentFileSize < segment.fileSize

theorem ClosesFull.trans {store middle after : LogSegmentStore} (first : store.ClosesFull middle)
    (second : middle.ClosesFull after)
    (sameMax : middle.maxLogSegmentFileSize = store.maxLogSegmentFileSize) :
    store.ClosesFull after := by
  intro segment isMember
  rcases second segment isMember with isOld | large
  · exact first segment isOld
  · exact .inr (sameMax ▸ large)

/-- The store after a call represents this log, with the same limit. -/
structure Yields (store : LogSegmentStore) (log : IndexedLog LogEntry) (after : LogSegmentStore) :
    Prop where
  represents : after.Represents log
  settled : after.Settled
  sameMax : after.maxLogSegmentFileSize = store.maxLogSegmentFileSize
  closesFull : store.ClosesFull after

theorem settled_of_open {store : LogSegmentStore} {segment : NuRaftLogSegment}
    (isOpen : store.openSegment = some segment)
    (nonempty : segment.firstIndex ≤ segment.lastIndex) : store.Settled where
  emptyLast := by
    intro other isSegment isEmpty
    rw [isOpen] at isSegment
    cases isSegment
    omega
  noneOpen := by
    intro noOpen
    rw [isOpen] at noOpen
    cases noOpen

end LogSegmentStore

theorem Contiguous.exists_getLast?_filter {files : Directory} {first index : ℕ}
    {segments : List NuRaftLogSegment} {entries : List LogEntry}
    (chain : Contiguous files first segments entries) (lower : first ≤ index)
    (upper : index < first + entries.length) :
    ∃ before segment after front part back,
      (segments.filter fun segment =>
        decide (segment.firstIndex ≤ index ∧ index ≤ segment.lastIndex)).getLast? = some segment ∧
      segments = before ++ segment :: after ∧ entries = front ++ (part ++ back) ∧
      Contiguous files first before front ∧ segment.Holds files part ∧
      segment.firstIndex = first + front.length ∧
      Contiguous files (segment.firstIndex + part.length) after back ∧
      segment.firstIndex ≤ index ∧ index ≤ segment.lastIndex := by
  rcases chain.split_at lower upper with ⟨before, segment, after, front, part, back, rfl, rfl,
    chainBefore, holds, starts, chainAfter, inRange⟩
  refine ⟨before, segment, after, front, part, back, ?_, rfl, rfl, chainBefore, holds, starts,
    chainAfter, inRange⟩
  have notBefore : before.filter (fun segment =>
      decide (segment.firstIndex ≤ index ∧ index ≤ segment.lastIndex)) = [] := by
    rw [filter_eq_nil_iff]
    intro other isMember
    have bounds := chainBefore.bounds isMember
    simp only [decide_eq_true_eq]
    omega
  have notAfter : after.filter (fun segment =>
      decide (segment.firstIndex ≤ index ∧ index ≤ segment.lastIndex)) = [] := by
    rw [filter_eq_nil_iff]
    intro other isMember
    have range := holds.range
    have bounds := chainAfter.bounds isMember
    simp only [decide_eq_true_eq]
    omega
  rw [filter_append, notBefore, filter_cons_of_pos (by simpa using inRange), notAfter]
  rfl

namespace LogSegmentStore.Represents

variable {store : LogSegmentStore} {log : IndexedLog LogEntry}

theorem split (represents : store.Represents log) :
    ∃ front back, log.entries = front ++ back ∧
      Contiguous store.files log.first store.closedSegments front ∧
      Contiguous store.files (log.first + front.length) store.openSegment.toList back :=
  represents.chain.of_append

theorem getEntry (represents : store.Represents log) (index : ℕ) :
    store.getEntry index = .ok (log.get index) := by
  have first := represents.first
  have last := represents.last
  by_cases inside : log.first ≤ index ∧ index < log.next
  · rcases represents.split with ⟨front, back, entries, chainClosed, chainOpen⟩
    have next : log.next = log.first + front.length + back.length := by
      rw [IndexedLog.next, entries, length_append, Nat.add_assoc]
    have asParts : log = ⟨log.first, front ++ back⟩ := by rw [← entries]
    rw [LogSegmentStore.getEntry, getSegment, if_neg (by omega), if_neg (by omega)]
    by_cases later : log.first + front.length ≤ index
    · -- The index is in the open segment.
      cases isOpen : store.openSegment with
      | none =>
        rw [isOpen] at chainOpen
        have empty := chainOpen.eq_nil
        simp [empty] at next
        omega
      | some segment =>
        rw [isOpen] at chainOpen
        rcases chainOpen.of_singleton with ⟨starts, holds⟩
        have part := @IndexedLog.get_part _ log.first index front back [] later (by omega)
        rw [append_nil, ← asParts] at part
        have chosen : (some segment).filter (fun segment => segment.firstIndex ≤ index) =
            some segment := by
          simp [starts, later]
        rw [chosen, part, ← starts]
        exact holds.getEntry index
    · rcases chainClosed.exists_getLast?_filter inside.1 (Nat.not_le.mp later) with
        ⟨before, segment, after, frontEntries, part, backEntries, found, -, split, -, holds, starts,
          -, inRange⟩
      have range := holds.range
      have notOpen : store.openSegment.filter (fun segment => segment.firstIndex ≤ index) =
        none := by
        rw [filter_eq_none_iff]
        intro segment isOpen
        rw [isOpen] at chainOpen
        have starts := chainOpen.of_singleton.1
        simp only [decide_eq_true_eq]
        omega
      have inPart := @IndexedLog.get_part _ log.first index frontEntries part (backEntries ++ back)
        (by omega) (by omega)
      rw [← append_assoc part, ← append_assoc, ← split, ← asParts, ← starts] at inPart
      rw [notOpen, found, inPart]
      exact holds.getEntry index
  · have absent : log.get index = none := by
      rw [← not_isSome_iff_eq_none, IndexedLog.get_isSome_iff]
      exact inside
    rw [LogSegmentStore.getEntry, getSegment, absent]
    by_cases empty : store.lastLogIndex < store.firstLogIndex
    · rw [if_pos empty]
    · rw [if_neg empty, if_pos (by omega)]

theorem getOpenFileName_ne_getClosedFileName (segment other : NuRaftLogSegment) :
    segment.getOpenFileName ≠ other.getClosedFileName := by
  intro same
  have names := SegmentFileName.print_injective same
  simp at names

theorem close_full {segment : NuRaftLogSegment} (isOpen : segment.isOpen = true)
    {files : Directory} : segment.close true files =
      (files.rename segment.getOpenFileName segment.getClosedFileName, segment.asClosed) := by
  simp [NuRaftLogSegment.close, isOpen]

theorem openNewSegmentIfNeeded_of_absent {createTime : CreateTime}
    (closes : store.keepsOpenSegment = false)
    (absent : store.closeOpenSegment.files.lookup
      (fresh (store.closeOpenSegment.lastLogIndex + 1) createTime).getOpenFileName = none) :
    LogSegmentStore.openNewSegmentIfNeeded createTime store =
      .ok () { store.closeOpenSegment with
        files := store.closeOpenSegment.files.insert
          (fresh (store.closeOpenSegment.lastLogIndex + 1) createTime).fileName segmentHeader
        openSegment := some (fresh (store.closeOpenSegment.lastLogIndex + 1) createTime) } := by
  have isNew : store.closeOpenSegment.files.lookup
      (fresh (store.closeOpenSegment.lastLogIndex + 1) createTime).fileName = none := absent
  simp [LogSegmentStore.openNewSegmentIfNeeded, closes, create, isNew]

variable (represents : store.Represents log)

include represents

variable {segment : NuRaftLogSegment}

theorem fileName_of_closed (isMember : segment ∈ store.closedSegments) :
    segment.fileName = segment.getClosedFileName := by
  rcases represents.chain.exists_holds (mem_append_left _ isMember) with ⟨_, holds⟩
  exact holds.fileName_of_isClosed (represents.closed segment isMember)

theorem lastIndex_of_open (isOpen : store.openSegment = some segment) :
    segment.lastIndex = store.lastLogIndex := by
  have ends := represents.chain.last
  rw [segments, isOpen, toList_some, getLast?_concat, ← IndexedLog.next, ← represents.last]
    at ends
  exact Nat.succ.inj ends

theorem getClosedFileName_ne (emptyLast : ∀ segment ∈ store.openSegment,
      segment.lastIndex < segment.firstIndex → store.NonemptyClosed) {closed : NuRaftLogSegment}
    (isOpen : segment ∈ store.openSegment) (isClosed : closed ∈ store.closedSegments) :
    closed.fileName ≠ segment.getClosedFileName := by
  intro same
  rw [represents.fileName_of_closed isClosed] at same
  have names := SegmentFileName.print_injective same
  simp only [SegmentFileName.mk.injEq, some.injEq] at names
  have separate := (pairwise_append.mp represents.chain.pairwise).2.2 closed isClosed segment
    (mem_toList.mpr isOpen)
  have nonempty := emptyLast segment isOpen (by omega) closed isClosed
  omega

theorem lookup_openFileName (noOpen : store.openSegment = none) (segment : NuRaftLogSegment) :
    store.files.lookup segment.getOpenFileName = none := by
  rw [lookup_eq_none]
  intro present
  rcases represents.tidy.noOther _ present with ⟨closed, isMember, same⟩
  rw [segments, noOpen, toList_none, append_nil] at isMember
  rw [represents.fileName_of_closed isMember] at same
  exact getOpenFileName_ne_getClosedFileName segment closed same.symm

theorem closeOpenSegment (emptyLast : ∀ segment ∈ store.openSegment,
      segment.lastIndex < segment.firstIndex → store.NonemptyClosed) :
    store.closeOpenSegment.Represents log ∧ store.closeOpenSegment.openSegment = none := by
  cases isOpen : store.openSegment with
  | none => simp [LogSegmentStore.closeOpenSegment, isOpen, represents]
  | some segment =>
    have isOpenSegment := represents.opened segment isOpen
    rcases represents.split with ⟨front, back, entries, chainClosed, chainOpen⟩
    rw [isOpen] at chainOpen
    rcases chainOpen.of_singleton with ⟨starts, holds⟩
    have found := holds.content
    rw [holds.fileName_of_isOpen isOpenSegment] at found
    have closed : store.closeOpenSegment =
        { store with
          files := store.files.rename segment.getOpenFileName segment.getClosedFileName
          closedSegments := store.closedSegments ++ [segment.asClosed]
          openSegment := none } := by
      simp [LogSegmentStore.closeOpenSegment, isOpen, close_full isOpenSegment]
    have newName : ∀ other ∈ store.closedSegments, other.fileName ≠ segment.getClosedFileName :=
      fun other isMember => represents.getClosedFileName_ne emptyLast isOpen isMember
    have tidy := represents.tidy
    rw [segments, isOpen, toList_some] at tidy
    rw [closed]
    refine ⟨⟨represents.positive, ?_, ?_, ?_, by simp, by simp, represents.first,
      represents.last⟩, rfl⟩
    · simp only [segments, toList_none, append_nil, entries]
      apply Contiguous.append
      · apply chainClosed.congr
        intro other isMember
        rw [lookup_rename found, if_neg (newName other isMember), if_neg]
        rw [represents.fileName_of_closed isMember]
        exact (getOpenFileName_ne_getClosedFileName segment other).symm
      · exact .singleton starts (holds.asClosed isOpenSegment)
    · have renamed := @Tidy.rename _ _ segment segment.asClosed tidy _ holds.content newName
      rw [holds.fileName_of_isOpen isOpenSegment] at renamed
      simp only [segments, toList_none, append_nil]
      exact renamed
    · intro other isMember
      rcases mem_append.mp isMember with isClosed | isLast
      · exact represents.closed other isClosed
      · rw [mem_singleton.mp isLast]
        rfl

theorem mem_files (isMember : segment ∈ store.segments) : segment.fileName ∈ store.files := by
  rcases represents.chain.exists_holds isMember with ⟨_, holds⟩
  exact mem_of_lookup_eq_some holds.content

theorem withFreshSegment (noOpen : store.openSegment = none) (createTime : CreateTime) :
    let segment := fresh (store.lastLogIndex + 1) createTime
    Represents
      { store with
        files := store.files.insert segment.fileName segmentHeader
        openSegment := some segment }
      log := by
  intro segment
  have absent : store.files.lookup segment.fileName = none :=
    represents.lookup_openFileName noOpen segment
  have segments : store.segments = store.closedSegments := by simp [segments, noOpen]
  have next : log.first + log.entries.length = store.lastLogIndex + 1 := represents.last.symm
  have chain := represents.chain
  have tidy := represents.tidy
  rw [segments] at chain tidy
  refine ⟨represents.positive, ?_, ?_, represents.closed, ?_, ?_, represents.first, represents.last⟩
  · have entries : log.entries = log.entries ++ [] := (append_nil _).symm
    rw [entries]
    apply Contiguous.append
    · apply chain.congr
      intro other isMember
      rw [lookup_insert_ite, if_neg]
      intro same
      have present := represents.mem_files (segments ▸ isMember)
      rw [same] at present
      exact lookup_eq_none.mp absent present
    · rw [next]
      exact .singleton rfl (.fresh (Nat.succ_pos _) createTime store.files)
  · apply tidy.insert absent
    intro other isMember
    exact represents.mem_files (segments ▸ isMember)
  · intro other isSegment
    cases isSegment
    rfl
  · intro other isSegment
    cases isSegment
    exact .inl rfl

theorem lt_fileSize (isOpen : store.openSegment = some segment)
    (closes : store.keepsOpenSegment = false) :
    store.maxLogSegmentFileSize < segment.fileSize := by
  have isSegment : segment ∈ store.segments := by simp [segments, isOpen]
  rcases represents.chain.exists_holds isSegment with ⟨_, holds⟩
  simpa [keepsOpenSegment, isOpen, holds.version] using closes

theorem closeOpenSegment_closesFull (closes : store.keepsOpenSegment = false) :
    store.ClosesFull store.closeOpenSegment := by
  intro other isMember
  cases isOpen : store.openSegment with
  | none =>
    simp only [LogSegmentStore.closeOpenSegment, isOpen] at isMember
    exact .inl isMember
  | some segment =>
    simp only [LogSegmentStore.closeOpenSegment, isOpen, mem_append, List.mem_singleton,
      close_full (represents.opened segment isOpen)] at isMember
    rcases isMember with isClosed | rfl
    · exact .inl isClosed
    · have large := represents.lt_fileSize isOpen closes
      exact .inr large

theorem openNewSegmentIfNeeded (emptyLast : ∀ segment ∈ store.openSegment,
      segment.lastIndex < segment.firstIndex → store.NonemptyClosed) (createTime : CreateTime) :
    ∃ after segment, openNewSegmentIfNeeded createTime store = .ok () after ∧
      after.Represents log ∧ after.openSegment = some segment ∧
      segment.segFd = some segment.fileSize ∧
      after.maxLogSegmentFileSize = store.maxLogSegmentFileSize ∧ store.ClosesFull after := by
  cases keeps : store.keepsOpenSegment with
  | true =>
    rcases Option.any_eq_true .. |>.mp keeps with ⟨segment, isOpen, fits⟩
    simp only [decide_eq_true_eq] at fits
    refine ⟨store, segment, by simp [LogSegmentStore.openNewSegmentIfNeeded, keeps], represents,
      isOpen, ?_, rfl, fun _ => .inl⟩
    rcases represents.writes segment isOpen with atEnd | large
    · exact atEnd
    · omega
  | false =>
    rcases represents.closeOpenSegment emptyLast with ⟨closed, noOpen⟩
    refine ⟨_, _, openNewSegmentIfNeeded_of_absent keeps (closed.lookup_openFileName noOpen _),
      closed.withFreshSegment noOpen createTime, rfl, rfl, ?_, ?_⟩
    · cases isOpen : store.openSegment with
      | none | some segment => simp [LogSegmentStore.closeOpenSegment, isOpen]
    · exact represents.closeOpenSegment_closesFull keeps

theorem appendToOpenSegment (isOpen : store.openSegment = some segment)
    (atEnd : segment.segFd = some segment.fileSize) (entry : LogEntry) :
    ∃ after appended, appendToOpenSegment entry store = .ok (store.lastLogIndex + 1) after ∧
      after.Represents (log.append entry) ∧ after.openSegment = some appended ∧
      appended.firstIndex ≤ appended.lastIndex ∧
      after.maxLogSegmentFileSize = store.maxLogSegmentFileSize ∧
      after.closedSegments = store.closedSegments := by
  have isOpenSegment := represents.opened segment isOpen
  rcases represents.split with ⟨front, back, entries, chainClosed, chainOpen⟩
  have tidy := represents.tidy
  rw [segments, isOpen, toList_some] at tidy
  rw [isOpen] at chainOpen
  rcases chainOpen.of_singleton with ⟨starts, holds⟩
  have range := holds.range
  have last : store.lastLogIndex = segment.lastIndex := by
    have last := represents.last
    rw [IndexedLog.next, entries, length_append] at last
    omega
  have written := holds.withEntry isOpenSegment entry
  refine ⟨
    { store with
      files := store.files.modify segment.fileName fun content =>
        File.write content segment.fileSize (entry.record (segment.lastIndex + 1))
      openSegment := some (segment.withEntry segment.fileSize entry)
      lastLogIndex := segment.lastIndex + 1 },
    segment.withEntry segment.fileSize entry, ?_, ?_, rfl, ?_, rfl, rfl⟩
  · simp only [LogSegmentStore.appendToOpenSegment, isOpen, NuRaftLogSegment.appendEntry,
      isOpenSegment, atEnd, last]
    rfl
  · refine ⟨represents.positive, ?_, ?_, represents.closed, ?_, ?_, represents.first, ?_⟩
    · simp only [segments, toList_some, IndexedLog.append, entries, append_assoc]
      apply Contiguous.append
      · apply chainClosed.congr
        intro other isMember
        rw [lookup_modify, if_neg (tidy.ne_of_mem isMember)]
      · exact .singleton starts written
    · exact @Tidy.modify _ _ segment (segment.withEntry segment.fileSize entry) tidy rfl _
    · intro other isSegment
      cases isSegment
      exact isOpenSegment
    · intro other isSegment
      cases isSegment
      left
      simp [withEntry, LogEntry.size]
    · rw [IndexedLog.next_append, ← represents.last, last]
  · have grown := written.range
    simp only [length_append, length_singleton] at grown
    omega

theorem appendEntry (settled : store.Settled) (createTime : CreateTime) (entry : LogEntry) :
    ∃ after, appendEntry createTime entry store = .ok (store.lastLogIndex + 1) after ∧
      store.Yields (log.append entry) after := by
  rcases represents.openNewSegmentIfNeeded settled.emptyLast createTime with
    ⟨middle, segment, opens, represented, isOpen, atEnd, sameMax, closesFull⟩
  rcases represented.appendToOpenSegment isOpen atEnd entry with
    ⟨after, appended, appends, afterRepresented, afterOpen, nonempty, sameMaxAfter, sameClosed⟩
  have sameLast : middle.lastLogIndex = store.lastLogIndex := by
    have last := represents.last
    have middleLast := represented.last
    omega
  refine ⟨after, ?_, afterRepresented, settled_of_open afterOpen nonempty,
    sameMaxAfter.trans sameMax, ?_⟩
  · rw [← sameLast]
    simp only [LogSegmentStore.appendEntry, bind, EStateM.bind, opens, appends]
  · rw [ClosesFull, sameClosed]
    exact closesFull

theorem entries_ne_nil (stored : store.firstLogIndex ≤ store.lastLogIndex) : log.entries ≠ [] := by
  intro empty
  have first := represents.first
  have last := represents.last
  rw [IndexedLog.next, empty, length_nil] at last
  omega

theorem exists_open (settled : store.Settled) (nonempty : log.entries ≠ []) :
    ∃ segment, store.openSegment = some segment := by
  cases isOpen : store.openSegment with
  | none =>
    have chain := represents.chain
    rw [segments, isOpen, settled.noneOpen isOpen] at chain
    exact absurd chain.eq_nil nonempty
  | some segment => exact ⟨segment, rfl⟩

theorem nonempty_of_large (isMember : segment ∈ store.segments)
    (large : magicAndVersionSize < segment.fileSize) :
    segment.firstIndex ≤ segment.lastIndex := by
  rcases represents.chain.exists_holds isMember with ⟨entries, holds⟩
  have range := holds.range
  rw [holds.fileSize] at large
  cases entries with
  | nil => simp at large
  | cons entry rest =>
    rw [length_cons] at range
    omega

end LogSegmentStore.Represents

namespace LogSegmentStore

variable {store after : LogSegmentStore} {log : IndexedLog LogEntry}

theorem FullClosed.of_closesFull (full : store.FullClosed) (closesFull : store.ClosesFull after)
    (sameMax : after.maxLogSegmentFileSize = store.maxLogSegmentFileSize) : after.FullClosed := by
  intro segment isMember
  rw [sameMax]
  rcases closesFull segment isMember with isOld | large
  · exact full segment isOld
  · exact large

theorem NonemptyClosed.of_closesFull (nonempty : store.NonemptyClosed)
    (closesFull : store.ClosesFull after) (represents : after.Represents log)
    (room : magicAndVersionSize ≤ store.maxLogSegmentFileSize) : after.NonemptyClosed := by
  intro segment isMember
  rcases closesFull segment isMember with isOld | large
  · exact nonempty segment isOld
  · apply represents.nonempty_of_large (mem_append_left _ isMember)
    omega

end LogSegmentStore

end RaftKeeper
