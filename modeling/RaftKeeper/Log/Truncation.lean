import RaftKeeper.Log.Represents

/-!
# Truncating a log

`truncateLog` removes the segments that begin after the last index to keep and truncates the segment
of that index, which becomes the open one. A closed segment is opened again without moving the
descriptor to the end; that goes well if the file is too large for another entry.
-/

namespace RaftKeeper

open List LogSegmentStore NuRaftLogSegment Option
open NuRaft (LogEntry)

namespace LogSegmentStore

/-- The log is cut at the end of a closed segment that has room for another entry. -/
def ReopensSmall (store : LogSegmentStore) (lastIndexKept : ℕ) : Prop :=
  lastIndexKept < store.lastLogIndex ∧
    ∃ segment ∈ store.closedSegments, segment.firstIndex ≤ lastIndexKept ∧
      segment.lastIndex = lastIndexKept ∧ segment.fileSize ≤ store.maxLogSegmentFileSize

instance (store : LogSegmentStore) (lastIndexKept : ℕ) :
    Decidable (store.ReopensSmall lastIndexKept) :=
  inferInstanceAs (Decidable (_ ∧ _))

theorem lastSegment_eq (lastIndexKept : ℕ) (store : LogSegmentStore) :
    store.lastSegment lastIndexKept = (store.segments.filter fun segment =>
      decide (segment.firstIndex ≤ lastIndexKept ∧ lastIndexKept ≤
        segment.lastIndex)).getLast? := by
  rw [segments, filter_append, getLast?_append, lastSegment, ← toList_filter]
  cases Option.filter _ store.openSegment with
  | none | some segment => rfl

theorem segments_removeAfter (lastIndexKept : ℕ) (store : LogSegmentStore) :
    (store.removeAfter lastIndexKept).segments =
      store.segments.filter fun segment => !decide (lastIndexKept < segment.firstIndex) := by
  simp [segments, removeAfter, toList_filter]

theorem truncateLog_of_lastSegment {store : LogSegmentStore} {lastIndexKept : ℕ}
    {segment truncated : NuRaftLogSegment} {isTruncated : Bool} {files : Directory}
    (below : lastIndexKept < store.lastLogIndex)
    (found : store.lastSegment lastIndexKept = some segment)
    (truncates : segment.truncate (store.removeAfter lastIndexKept).files lastIndexKept =
      (isTruncated, files, truncated))
    (ends : truncated.lastIndex = lastIndexKept) :
    truncateLog lastIndexKept store = .ok true
      { store with
        files
        closedSegments :=
          if segment.isOpen then (store.removeAfter lastIndexKept).closedSegments
          else (store.removeAfter lastIndexKept).closedSegments.dropLast
        openSegment := some truncated
        lastLogIndex := lastIndexKept } := by
  simp only [truncateLog, if_neg (Nat.not_le.mpr below), found, truncates, ends]
  simp [removeAfter]

namespace Represents

variable {store : LogSegmentStore} {log : IndexedLog LogEntry} {lastIndexKept : ℕ}

theorem truncateLog_all (represents : store.Represents log)
    (nonempty : lastIndexKept < store.lastLogIndex) (lower : log.first = lastIndexKept + 1) :
    ∃ after, truncateLog lastIndexKept store = .ok true after ∧
      store.Yields (log.keepTo lastIndexKept) after := by
  have removesAll : ∀ segment ∈ store.segments, lastIndexKept < segment.firstIndex := by
    intro segment isMember
    have bounds := represents.chain.bounds isMember
    omega
  have noLast : store.lastSegment lastIndexKept = none := by
    rw [lastSegment_eq, getLast?_eq_none_iff, filter_eq_nil_iff]
    intro segment isMember
    have later := removesAll segment isMember
    simp only [decide_eq_true_eq]
    omega
  have noneKept : store.segments.filter
      (fun segment => !decide (lastIndexKept < segment.firstIndex)) = [] := by
    rw [filter_eq_nil_iff]
    intro segment isMember
    simpa using removesAll segment isMember
  have tidy := represents.tidy.removeFiles fun segment =>
    decide (lastIndexKept < segment.firstIndex)
  rw [noneKept] at tidy
  have noSegments := store.segments_removeAfter lastIndexKept
  rw [noneKept, segments, append_eq_nil_iff, toList_eq_nil_iff] at noSegments
  have noEntries : log.keepTo lastIndexKept = ⟨log.first, []⟩ := by
    simp [IndexedLog.keepTo, lower]
  refine ⟨
    { store with
      files := (store.removeAfter lastIndexKept).files
      closedSegments := []
      openSegment := none
      lastLogIndex := lastIndexKept }, ?_, ?_, ⟨by simp, by simp⟩, rfl, by simp [ClosesFull]⟩
  · simp only [truncateLog, Nat.not_le.mpr nonempty, if_false, noLast, noSegments]
    rfl
  · rw [noEntries]
    refine ⟨represents.positive, .nil _, tidy, by simp, by simp, by simp, represents.first, ?_⟩
    simp [IndexedLog.next, lower]

/-- A segment that is truncated is open afterwards, and it is the last one. -/
theorem truncate_last {files : Directory} {before : List NuRaftLogSegment}
    {segment : NuRaftLogSegment} {part : List LogEntry} (tidy : Tidy files (before ++ [segment]))
    (closed : ∀ other ∈ before, other.fileName = other.getClosedFileName)
    (holds : segment.Holds files part) (lower : segment.firstIndex ≤ lastIndexKept)
    (upper : lastIndexKept ≤ segment.lastIndex) :
    ∃ isTruncated after truncated,
      segment.truncate files lastIndexKept = (isTruncated, after, truncated) ∧
      truncated.Holds after (part.take (lastIndexKept + 1 - segment.firstIndex)) ∧
      Tidy after (before ++ [truncated]) ∧
      (∀ other ∈ before, after.lookup other.fileName = files.lookup other.fileName) ∧
      truncated.firstIndex = segment.firstIndex ∧ truncated.lastIndex = lastIndexKept ∧
      truncated.isOpen = true ∧
      (truncated.segFd = some truncated.fileSize ∨
        segment.lastIndex = lastIndexKept ∧ truncated.fileSize = segment.fileSize) := by
  have range := holds.range
  -- the segment is open from here on, under its other name if it was closed
  have reopens : ∃ opened, (segment.reopenClosedSegment files).2 = opened ∧
      opened.Holds (segment.reopenClosedSegment files).1 part ∧
      Tidy (segment.reopenClosedSegment files).1 (before ++ [opened]) ∧
      (∀ other ∈ before, (segment.reopenClosedSegment files).1.lookup other.fileName =
        files.lookup other.fileName) ∧
      opened.firstIndex = segment.firstIndex ∧ opened.lastIndex = segment.lastIndex ∧
      opened.isOpen = true ∧ opened.fileSize = segment.fileSize := by
    rw [reopenClosedSegment]
    cases isOpen : segment.isOpen with
    | true => exact ⟨segment, rfl, holds, tidy, fun _ _ => rfl, rfl, rfl, isOpen, rfl⟩
    | false =>
      have found := holds.content
      have isNew : ∀ other ∈ before, other.fileName ≠ segment.asOpen.fileName := by
        intro other isMember
        rw [closed other isMember]
        exact (getOpenFileName_ne_getClosedFileName segment other).symm
      have renamed := @Tidy.rename _ _ segment segment.asOpen tidy _ found isNew
      rw [holds.fileName_of_isClosed isOpen] at renamed
      refine ⟨segment.asOpen, rfl, holds.asOpen isOpen, renamed, ?_, rfl, rfl, rfl, rfl⟩
      intro other isMember
      have isOther := tidy.ne_of_mem isMember
      rw [holds.fileName_of_isClosed isOpen] at found isOther
      exact (Finmap.lookup_rename found _).trans
        ((if_neg (isNew other isMember)).trans (if_neg isOther))
  rcases reopens with ⟨opened, isOpened, holdsOpened, tidyOpened, frame, first, last, isOpen, size⟩
  rw [truncate, isOpened]
  rcases Nat.eq_or_lt_of_le upper with atEnd | inside
  · rw [if_pos atEnd.ge]
    refine ⟨false, _, opened, by rw [← isOpened], ?_, tidyOpened, frame, first, by omega, isOpen,
      .inr ⟨atEnd.symm, size⟩⟩
    rw [take_of_length_le (by omega)]
    exact holdsOpened
  · rw [if_neg (Nat.not_le.mpr inside)]
    refine ⟨true, _, opened.keepTo lastIndexKept, rfl, ?_, ?_, ?_, first, rfl, isOpen, .inl rfl⟩
    · rw [← first]
      exact holdsOpened.keepTo isOpen (by omega) (by omega)
    · exact @Tidy.modify _ _ opened (opened.keepTo lastIndexKept) tidyOpened rfl _
    · intro other isMember
      exact (Finmap.lookup_modify ..).trans
        ((if_neg (tidyOpened.ne_of_mem isMember)).trans (frame other isMember))

theorem truncateLog_inside (represents : store.Represents log)
    (below : lastIndexKept < store.lastLogIndex) (large : ¬ store.ReopensSmall lastIndexKept)
    (lower : log.first ≤ lastIndexKept) :
    ∃ after, truncateLog lastIndexKept store = .ok true after ∧
      store.Yields (log.keepTo lastIndexKept) after := by
  have last := represents.last
  rw [IndexedLog.next] at last
  rcases represents.chain.exists_getLast?_filter lower (by omega) with
    ⟨before, segment, later, front, part, back, isLast, split, entries, chainBefore, holds, starts,
      chainLater, inRange⟩
  have range := holds.range
  rw [← lastSegment_eq] at isLast
  have keeps : ∀ other ∈ before ++ [segment], ¬ lastIndexKept < other.firstIndex := by
    refine forall_mem_append.mpr ⟨fun other isBefore => ?_, forall_mem_singleton.mpr (by omega)⟩
    have bounds := chainBefore.bounds isBefore
    omega
  have kept : store.segments.filter
      (fun segment => !decide (lastIndexKept < segment.firstIndex)) = before ++ [segment] := by
    rw [split, append_cons, filter_append, filter_eq_self.mpr, filter_eq_nil_iff.mpr, append_nil]
    · intro other isLater
      have bounds := chainLater.bounds isLater
      simp only [Bool.not_eq_true', decide_eq_false_iff_not]
      omega
    · intro other isKept
      simpa using keeps other isKept
  have tidy := represents.tidy.removeFiles fun segment =>
    decide (lastIndexKept < segment.firstIndex)
  rw [kept] at tidy
  have isSegment : ∀ other ∈ before ++ [segment], other ∈ store.segments := by
    intro other isKept
    rw [split, append_cons]
    exact mem_append_left _ isKept
  have frame : ∀ other ∈ before ++ [segment],
      (store.removeAfter lastIndexKept).files.lookup other.fileName =
        store.files.lookup other.fileName := by
    intro other isKept
    exact represents.tidy.lookup_removeFiles _ (isSegment other isKept)
      (by simpa using keeps other isKept)
  have closedAfter : (if segment.isOpen then (store.removeAfter lastIndexKept).closedSegments
      else (store.removeAfter lastIndexKept).closedSegments.dropLast) = before ∧
      (∀ other ∈ before, other ∈ store.closedSegments) ∧
      (segment ∈ store.closedSegments ∨ store.openSegment = some segment) := by
    have isKept := (store.segments_removeAfter lastIndexKept).trans kept
    have stayed : ∀ other ∈ (store.removeAfter lastIndexKept).closedSegments,
        other ∈ store.closedSegments := fun _ => mem_of_mem_filter
    rw [segments] at isKept
    cases opened : (store.removeAfter lastIndexKept).openSegment with
    | none =>
      rw [opened, toList_none, append_nil] at isKept
      rw [isKept] at stayed ⊢
      have isClosed := stayed segment (by simp)
      rw [represents.closed segment isClosed, if_neg Bool.false_ne_true, dropLast_concat]
      exact ⟨rfl, fun other isBefore => stayed other (mem_append_left _ isBefore), .inl isClosed⟩
    | some last =>
      rw [opened, toList_some] at isKept
      rcases append_inj' isKept rfl with ⟨isBefore, isSegment⟩
      cases isSegment
      have isOpen := (filter_eq_some_iff.mp opened).1
      rw [represents.opened segment isOpen, if_pos rfl, ← isBefore]
      exact ⟨rfl, stayed, .inr isOpen⟩
  rcases closedAfter with ⟨closedAfter, closedBefore, isClosedOrOpen⟩
  rcases truncate_last tidy
      (fun other isBefore => represents.fileName_of_closed (closedBefore other isBefore))
      (holds.congr (frame segment (by simp))) inRange.1 inRange.2 with
    ⟨isTruncated, after, truncated, truncates, holdsTruncated, tidyAfter, sameBefore, sameFirst,
      ends, isOpen, writes⟩
  have keptEntries := @IndexedLog.keepTo_part _ log.first lastIndexKept front part back (by omega)
    (by omega)
  rw [← entries, ← starts] at keptEntries
  refine ⟨_, truncateLog_of_lastSegment below isLast truncates ends, ?_,
    settled_of_open rfl (by omega), rfl, ?_⟩
  · rw [show log = ⟨log.first, log.entries⟩ from rfl, keptEntries, closedAfter]
    refine ⟨represents.positive, ?_, tidyAfter, ?_, ?_, ?_, represents.first, ?_⟩
    · apply Contiguous.append
      · apply chainBefore.congr
        intro other isBefore
        exact (sameBefore other isBefore).trans (frame other (mem_append_left _ isBefore))
      · exact .singleton (sameFirst.trans starts) holdsTruncated
    · intro other isBefore
      exact represents.closed other (closedBefore other isBefore)
    · intro other isSegment
      cases isSegment
      exact isOpen
    · intro other isSegment
      cases isSegment
      refine writes.imp_right ?_
      rintro ⟨isEnd, sameSize⟩
      -- the open segment ends where the log does
      rcases isClosedOrOpen with isClosed | wasOpen
      · by_contra small
        apply large
        exact ⟨below, segment, isClosed, inRange.1, isEnd, sameSize ▸ Nat.not_lt.mp small⟩
      · have ends := represents.lastIndex_of_open wasOpen
        omega
    · simp only [IndexedLog.next, length_append, length_take]
      omega
  · intro other isBefore
    rw [closedAfter] at isBefore
    exact .inl (closedBefore other isBefore)

theorem truncateLog (represents : store.Represents log) (settled : store.Settled)
    (lower : log.first ≤ lastIndexKept + 1) (large : ¬ store.ReopensSmall lastIndexKept) :
    ∃ happened after, truncateLog lastIndexKept store = .ok happened after ∧
      store.Yields (log.keepTo lastIndexKept) after := by
  have last := represents.last
  by_cases below : lastIndexKept < store.lastLogIndex
  · refine ⟨true, ?_⟩
    by_cases all : lastIndexKept < log.first
    · exact represents.truncateLog_all below (by omega)
    · exact represents.truncateLog_inside below large (Nat.not_lt.mp all)
  · refine ⟨false, store, ?_, ?_, settled, rfl, fun _ => .inl⟩
    · simp [LogSegmentStore.truncateLog, Nat.not_lt.mp below]
    · rw [IndexedLog.keepTo_of_next_le (by omega)]
      exact represents

theorem writeAt (represents : store.Represents log) (settled : store.Settled)
    (createTime : CreateTime) {index : ℕ} (entry : LogEntry) (lower : log.first ≤ index)
    (upper : index ≤ log.next) (large : ¬ store.ReopensSmall (index - 1)) :
    ∃ after, writeAt createTime index entry store = .ok () after ∧
      store.Yields (log.writeAt index entry) after := by
  have positive := represents.positive
  have previous : previousIndex index = index - 1 := if_neg (by omega)
  rcases represents.truncateLog settled (show log.first ≤ index - 1 + 1 by omega) large with
    ⟨happened, middle, truncates, represented, settledMiddle, sameMax, closesFull⟩
  rcases represented.appendEntry settledMiddle createTime entry with
    ⟨after, appends, afterRepresented, settledAfter, sameMaxAfter, closesFullAfter⟩
  have isNext : index = middle.lastLogIndex + 1 := by
    rw [represented.last]
    rcases Nat.eq_or_lt_of_le upper with atEnd | inside
    · rw [IndexedLog.keepTo_of_next_le (by omega)]
      exact atEnd
    · rw [IndexedLog.next_keepTo (by omega) (by omega)]
      omega
  refine ⟨after, ?_, afterRepresented, settledAfter, sameMaxAfter.trans sameMax,
    closesFull.trans closesFullAfter sameMax⟩
  simp only [LogSegmentStore.writeAt, bind, EStateM.bind, previous, truncates,
    EStateM.get_apply, if_pos isNext, appends]
  rfl

end Represents

end LogSegmentStore

end RaftKeeper
