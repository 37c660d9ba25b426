import RaftKeeper.Log.Reopening

/-!
# What a start accepts

`load` accepts the files that are a row of complete records after the header, and no other. A
directory is accepted whatever the ranges of its segments are: `prev_seg`, which each segment is
compared with, is never set. Without an open segment the range of the store begins at 1, also when
the log was compacted and the process stopped between closing a full segment and opening the next.
-/

namespace RaftKeeper

open List NuRaftLogSegment

open NuRaft (LogEntry)

namespace NuRaftLogSegment

theorem load_open (files : Directory) (fileName : Bytes) (firstIndex : ℕ) (createTime : CreateTime)
    (rest : Bytes) :
    (ofFileName fileName ⟨firstIndex, none, createTime⟩).load
        (files.insert fileName (segmentHeader ++ rest)) =
      (loadOffsets (segmentHeader ++ rest) (magicAndVersionSize + rest.length + 1)
        magicAndVersionSize).map fun offsets =>
          { ofFileName fileName ⟨firstIndex, none, createTime⟩ with
            lastIndex := firstIndex + offsets.length - 1
            segFd := some (magicAndVersionSize + rest.length)
            fileSize := magicAndVersionSize + rest.length
            offsets
            version := currentLogVersion } := by
  have content : (files.insert fileName (segmentHeader ++ rest)).lookup
      (ofFileName fileName ⟨firstIndex, none, createTime⟩).fileName =
        some (segmentHeader ++ rest) :=
    Finmap.lookup_insert _
  rw [load, content]
  simp only [Holds.readHeader, bind, Except.bind, show currentLogVersion ≠ 0 by decide, if_false,
    length_append, length_segmentHeader]
  cases loadOffsets (segmentHeader ++ rest) (magicAndVersionSize + rest.length + 1)
    magicAndVersionSize with
  | error | ok => rfl

theorem loadOffsets_cut {records : List Bytes} {before part more : Bytes} {offset fuel : ℕ}
    (isOffset : before.length = offset) (enough : (records.flatten ++ part).length < fuel)
    (areRecords : ∀ record ∈ records, IsRecord record) (isRecord : IsRecord (part ++ more))
    (nonempty : part ≠ []) (cut : more ≠ []) :
    ∃ error, loadOffsets (before ++ (records.flatten ++ part)) fuel offset = .error error := by
  induction records generalizing before offset fuel with
  | nil =>
    have noRecord : ∀ record after, part = record ++ after → ¬ IsRecord record := by
      rintro record after rfl isShorter
      rw [append_assoc] at isRecord
      exact cut (append_eq_nil_iff.mp (isShorter.eq_nil isRecord)).2
    cases fuel with
    | zero => omega
    | succ fuel =>
      rcases @loadOffsets_stops before part offset fuel isOffset nonempty noRecord with
        stops | stops
      all_goals exact ⟨_, stops⟩
  | cons record rest ih =>
    rw [forall_mem_cons] at areRecords
    cases fuel with
    | zero => omega
    | succ fuel =>
      have positive := areRecords.1.length_pos
      rw [flatten_cons, append_assoc, length_append] at enough
      rcases @ih (before ++ record) (offset + record.length) fuel (by simp [isOffset]) (by omega)
        areRecords.2 with ⟨error, stops⟩
      exact ⟨error, by
        rw [flatten_cons, append_assoc, loadOffsets_record isOffset areRecords.1, stops]
        rfl⟩

end NuRaftLogSegment

namespace LogSegmentStore

/--
An open file with the header of version 1 loads if and only if the rest of it is a row of complete
records, and a file that ends inside a record does not; the files of a store load as the segments it
has in memory, also after restarts, as long as no truncation reopens a small closed segment.
-/
theorem load_recognises_records (files : Directory) (fileName : Bytes) (firstIndex : ℕ)
    (createTime : CreateTime) (rest : Bytes) :
    (let segment := ofFileName fileName ⟨firstIndex, none, createTime⟩
      let result := segment.load (files.insert fileName (segmentHeader ++ rest))
      result ≠ .error .undefinedBehaviour ∧
      (∀ loaded, result = .ok loaded ↔
        ∃ records : List Bytes, rest = records.flatten ∧ (∀ record ∈ records, IsRecord record) ∧
          loaded = { segment with
            lastIndex := firstIndex + records.length - 1
            segFd := some (magicAndVersionSize + rest.length)
            fileSize := magicAndVersionSize + rest.length
            offsets := startsFrom magicAndVersionSize records
            version := currentLogVersion }) ∧
      ∀ (records : List Bytes) (part more : Bytes), (∀ record ∈ records, IsRecord record) →
        IsRecord (part ++ more) → part ≠ [] → more ≠ [] → rest = records.flatten ++ part →
          ∃ error, result = .error error) ∧
    ∀ (order : Enumeration Unit Bytes) (maxLogSegmentFileSize : ℕ) (createTime : CreateTime)
      (start store : LogSegmentStore), init order maxLogSegmentFileSize createTime ∅ = .ok start →
      start.Built store ∨ (magicAndVersionSize ≤ maxLogSegmentFileSize ∧
        ∃ log, ReachableBy next (fun state event => state.1.InRange event ∧ state.1.Harmless event)
          (start, ⟨1, []⟩) (store, log)) →
      ∀ segment ∈ store.segments,
        (ofFileName segment.fileName segment.name).load store.files = .ok segment.loaded := by
  constructor
  · have isOffset := length_segmentHeader
    have enough : rest.length < magicAndVersionSize + rest.length + 1 := by omega
    have outcome := @exists_flatten_or_stops segmentHeader rest magicAndVersionSize _ isOffset
      enough
    have loads : ∀ records : List Bytes, rest = records.flatten →
        (∀ record ∈ records, IsRecord record) →
        loadOffsets (segmentHeader ++ rest) (magicAndVersionSize + rest.length + 1)
          magicAndVersionSize = .ok (startsFrom magicAndVersionSize records) := by
      rintro records rfl areRecords
      exact loadOffsets_flatten isOffset enough areRecords
    simp only [load_open]
    refine ⟨?_, fun loaded => ⟨fun succeeds => ?_, ?_⟩, ?_⟩
    · rcases outcome with ⟨records, isRest, areRecords⟩ | stops | stops
      · simp [loads records isRest areRecords, Except.map]
      · simp [stops, Except.map]
      · simp [stops, Except.map]
    · rcases outcome with ⟨records, isRest, areRecords⟩ | stops | stops
      · rw [loads records isRest areRecords] at succeeds
        cases succeeds
        exact ⟨records, isRest, areRecords, by simp⟩
      · rw [stops] at succeeds
        cases succeeds
      · rw [stops] at succeeds
        cases succeeds
    · rintro ⟨records, isRest, areRecords, rfl⟩
      simp [loads records isRest areRecords, Except.map]
    · rintro records part more areRecords isRecord nonempty cut rfl
      rcases loadOffsets_cut isOffset enough areRecords isRecord nonempty cut with ⟨error, stops⟩
      exact ⟨error, by rw [stops]; rfl⟩
  · intro order maxLogSegmentFileSize createTime start store starts written segment isMember
    have exists_represents : ∃ log, store.Represents log := by
      rcases written with built | ⟨room, log, reached⟩
      · rcases built.represents starts with ⟨log, -, represents, -, -⟩
        exact ⟨log, represents⟩
      · exact ⟨log, (invariant_reached room starts reached).represents⟩
    rcases exists_represents with ⟨log, represents⟩
    rcases represents.chain.exists_holds isMember with ⟨part, holds⟩
    exact holds.load

set_option maxRecDepth 10000 in
theorem load_recognises_records_refiningRun :
    ∃ store log, ReachableBy next
        (fun state event => state.1.InRange event ∧ state.1.Harmless event)
        (sampleStart, ⟨1, []⟩) (store, log) ∧ store.segments.length = 2 ∧
      ∀ segment ∈ store.segments,
        (ofFileName segment.fileName segment.name).load store.files = .ok segment.loaded := by
  rcases (exists_reached refiningRun (by decide) : ∃ state, ReachableBy next
      (fun state event => state.1.InRange event ∧ state.1.Harmless event)
      (sampleStart, ⟨1, []⟩) state ∧ state.1.segments.length = 2) with ⟨⟨store, log⟩, reached, two⟩
  have load := (load_recognises_records ∅ [] 1 sampleTime []).2
  exact ⟨store, log, reached, two, load _ _ _ _ store init_sampleStart
    (.inr ⟨by decide, log, reached⟩)⟩

set_option maxRecDepth 10000 in
/-- The file that the truncation has reopened is overwritten from its first byte on. -/
theorem reopened_file_rejected :
    ∃ state, ReachableBy next (fun state event => state.1.InRange event) (sampleStart, ⟨1, []⟩)
        state ∧ ∃ segment ∈ state.1.segments,
          ((ofFileName segment.fileName segment.name).load state.1.files).toOption = none := by
  exact exists_reached reopeningRun (by decide)

/-- Each range begins right after the one before. -/
def Connected (segments : List NuRaftLogSegment) : Prop :=
  segments.IsChain fun left right => right.firstIndex = left.lastIndex + 1

instance (segments : List NuRaftLogSegment) : Decidable (Connected segments) :=
  inferInstanceAs (Decidable (List.IsChain _ _))

theorem Connected.contiguous {files : Directory} {segments : List NuRaftLogSegment} {first : ℕ}
    (connected : Connected segments)
    (holds : ∀ segment ∈ segments, ∃ entries, segment.Holds files entries)
    (starts : ∀ segment ∈ segments.head?, segment.firstIndex = first) :
    ∃ entries, Contiguous files first segments entries := by
  induction segments generalizing first with
  | nil => exact ⟨[], .nil first⟩
  | cons segment rest ih =>
    rw [forall_mem_cons] at holds
    rw [Connected, isChain_cons] at connected
    rcases holds.1 with ⟨part, holdsPart⟩
    have range := holdsPart.range
    have startsHere : segment.firstIndex = first := starts segment rfl
    rcases @ih (first + part.length) connected.2 holds.2 (by
      intro next isNext
      rw [connected.1 next isNext, range, startsHere]) with ⟨entries, chain⟩
    exact ⟨part ++ entries, .cons startsHere holdsPart chain⟩

theorem Represents.existsUnique_segment {store : LogSegmentStore} {log : IndexedLog LogEntry}
    (represents : store.Represents log) {index : ℕ} (lower : store.firstLogIndex ≤ index)
    (upper : index ≤ store.lastLogIndex) :
    ∃! segment, segment ∈ store.segments ∧ segment.firstIndex ≤ index ∧
      index ≤ segment.lastIndex := by
  have last := represents.last
  rw [represents.first] at lower
  rw [IndexedLog.next] at last
  rcases represents.chain.split_at lower (by omega) with
    ⟨before, segment, after, front, part, back, split, -, chainBefore, holds, starts, chainAfter,
      inRange⟩
  have range := holds.range
  refine ⟨segment, ⟨by simp [split], inRange⟩, ?_⟩
  rintro other ⟨isMember, inOther⟩
  rw [split, mem_append, mem_cons] at isMember
  rcases isMember with isBefore | rfl | isAfter
  · have bounds := chainBefore.bounds isBefore
    omega
  · rfl
  · have bounds := chainAfter.bounds isAfter
    omega

section

variable {files : Directory} {closed : List NuRaftLogSegment} {opened : Option NuRaftLogSegment}

theorem Stored.lookup_open (stored : Stored files closed opened) {segment : NuRaftLogSegment}
    (other : ∀ last ∈ opened, segment.getOpenFileName ≠ last.getOpenFileName) :
    files.lookup segment.getOpenFileName = none := by
  rw [Finmap.lookup_eq_none]
  intro present
  rcases stored.tidy.noOther _ present with ⟨found, isMember, same⟩
  rcases stored.holds found isMember with ⟨_, holds⟩
  rcases mem_append.mp isMember with isClosed | isOpen
  · rw [holds.fileName_of_isClosed (stored.isClosed found isClosed)] at same
    exact Represents.getOpenFileName_ne_getClosedFileName segment found same.symm
  · rw [Option.mem_toList] at isOpen
    rw [holds.fileName_of_isOpen (stored.isOpen found isOpen)] at same
    exact other found isOpen same.symm

/-- Whatever the ranges are, the new segment that may be needed is opened. -/
theorem Stored.exists_opens (stored : Stored files closed opened)
    (others : List NuRaftLogSegment) (maxLogSegmentFileSize : ℕ) (createTime : CreateTime) :
    ∃ after, openNewSegmentIfNeeded createTime
        (assembled maxLogSegmentFileSize files others opened) = .ok () after ∧
      (opened = none → after.firstLogIndex = 1 ∧
        after.lastLogIndex = (others.getLast?.map (·.lastIndex)).getD 0 ∧
        after.segments = others.map (·.loaded) ++ [fresh (after.lastLogIndex + 1) createTime]) := by
  cases opened with
  | none =>
    refine ⟨_, Represents.openNewSegmentIfNeeded_of_absent rfl (stored.lookup_open (by simp)), ?_⟩
    simp [segments, assembled, closeOpenSegment]
  | some segment =>
    cases keeps : (assembled maxLogSegmentFileSize files others
      (some segment)).keepsOpenSegment with
    | true => exact ⟨_, by rw [openNewSegmentIfNeeded, if_pos keeps], by simp⟩
    | false =>
      refine ⟨_, Represents.openNewSegmentIfNeeded_of_absent keeps ?_, by simp⟩
      rcases stored.holds segment (by simp) with ⟨_, holds⟩
      have isOpen := stored.isOpen segment rfl
      have content := holds.content
      rw [holds.fileName_of_isOpen isOpen] at content
      have isLoaded : segment.loaded.isOpen = true := isOpen
      simp only [closeOpenSegment, assembled, Option.map_some, Represents.close_full isLoaded]
      refine (Finmap.lookup_rename content _).trans ?_
      rw [if_neg (Represents.getOpenFileName_ne_getClosedFileName _ segment.loaded)]
      split
      · rfl
      · exact stored.lookup_open (by simpa using ‹_›)

/--
A start that succeeds has found connected ranges, and one segment for each index, if and only if the
ranges were connected before, with an open segment or from 1 on; or it fails for another reason.
-/
theorem init_detects_gaps_iff (stored : Stored files closed opened)
    (sorted : closed.Pairwise fun left right => left.firstIndex ≤ right.firstIndex)
    (order : Enumeration Unit Bytes) (maxLogSegmentFileSize : ℕ) (createTime : CreateTime) :
    (∀ after, init order maxLogSegmentFileSize createTime files = .ok after →
      Connected (closed ++ opened.toList) ∧
        ∀ index, after.firstLogIndex ≤ index → index ≤ after.lastLogIndex →
          ∃! segment, segment ∈ after.segments ∧ segment.firstIndex ≤ index ∧
            index ≤ segment.lastIndex) ↔
      (Connected (closed ++ opened.toList) ∧
        (opened = none → ∀ segment ∈ closed.head?, segment.firstIndex = 1)) ∨
      (∃ segment ∈ closed, segment.lastIndex < segment.firstIndex) ∨
      ∃ segment ∈ opened, segment.lastIndex < firstOf closed segment := by
  rcases stored.exists_init sorted order maxLogSegmentFileSize createTime with
    ⟨others, perm, firsts, starts⟩
  by_cases invalid : ∃ segment ∈ closed, segment.lastIndex < segment.firstIndex
  · rw [if_pos invalid] at starts
    exact iff_of_true (by simp [starts]) (.inr (.inl invalid))
  by_cases short : ∃ segment ∈ opened, segment.lastIndex < firstOf closed segment
  · rw [if_neg invalid, if_pos short] at starts
    exact iff_of_true (by simp [starts]) (.inr (.inr short))
  rw [if_neg invalid, if_neg short] at starts
  push Not at invalid short
  rcases stored.exists_opens others maxLogSegmentFileSize createTime with ⟨opensTo, opens, range⟩
  rw [opens] at starts
  constructor
  · intro detects
    rcases detects opensTo starts with ⟨connected, covers⟩
    refine .inl ⟨connected, fun isNone head isHead => ?_⟩
    rcases range isNone with ⟨first, last, segments⟩
    have positive := stored.positive head (mem_append_left _ (mem_of_mem_head? isHead))
    have headFirst : ∀ segment ∈ closed, head.firstIndex ≤ segment.firstIndex := by
      cases closed with
      | nil => simp
      | cons other rest =>
        cases isHead
        exact forall_mem_cons.mpr ⟨le_rfl, (pairwise_cons.mp sorted).1⟩
    have upper : head.firstIndex ≤ opensTo.lastLogIndex := by
      cases isLast : others.getLast? with
      | none =>
        rw [getLast?_eq_none_iff] at isLast
        rw [isLast] at perm
        rw [perm.nil_eq.symm] at isHead
        cases isHead
      | some segment =>
        have isMember := perm.mem_iff.mp (mem_of_getLast? isLast)
        have valid := invalid segment isMember
        have above := headFirst segment isMember
        rw [last, isLast, Option.map_some, Option.getD_some]
        omega
    rcases covers 1 (by omega) (by omega) with ⟨segment, ⟨isMember, inside, -⟩, -⟩
    rw [segments, mem_append, mem_map, mem_singleton] at isMember
    rcases isMember with ⟨found, isFound, rfl⟩ | rfl
    · have above := headFirst found (perm.mem_iff.mp isFound)
      have same : found.loaded.firstIndex = found.firstIndex := rfl
      omega
    · have same : (fresh (opensTo.lastLogIndex + 1) createTime).firstIndex =
        opensTo.lastLogIndex + 1 := rfl
      omega
  · rintro (⟨connected, begins⟩ | ⟨segment, isMember, empty⟩ | ⟨segment, isOpen, isShort⟩) after
      isAfter
    · have exists_first : ∃ first, 0 < first ∧ (opened = none → first = 1) ∧
          ∀ segment ∈ (closed ++ opened.toList).head?, segment.firstIndex = first := by
        cases isHead : (closed ++ opened.toList).head? with
        | none => exact ⟨1, Nat.one_pos, fun _ => rfl, by simp⟩
        | some head =>
          refine ⟨head.firstIndex, stored.positive head (mem_of_mem_head? isHead), ?_, by simp⟩
          exact fun isNone => begins isNone head (by simpa [isNone] using isHead)
      rcases exists_first with ⟨first, positive, beginsAt, isFirst⟩
      rcases connected.contiguous stored.holds isFirst with ⟨entries, chain⟩
      have inRange : ∀ segment ∈ opened, first ≤ segment.lastIndex := by
        intro segment isOpen
        have covered := short segment isOpen
        rwa [@Stored.firstOf_eq _ _ _ ⟨first, entries⟩ chain _ isOpen] at covered
      rcases @Stored.init_represents _ _ _ ⟨first, entries⟩ chain stored beginsAt positive invalid
        inRange order maxLogSegmentFileSize createTime with ⟨_, _, isInit, represents, -⟩
      rw [isAfter] at isInit
      cases isInit
      exact ⟨connected, fun index lower upper => represents.existsUnique_segment lower upper⟩
    · exact absurd (invalid segment isMember) (Nat.not_le.mpr empty)
    · exact absurd (short segment isOpen) (Nat.not_le.mpr isShort)

end

def threeAppends : List MaintenanceCall :=
  compactionRun.map .call

set_option maxRecDepth 10000 in
theorem init_detects_gaps_threeAppends :
    ∃ store, ReachableBy (fun store call => some (store.afterCall call)) KeepsRange
        sampleStart store ∧
      store.closedSegments.length = 2 ∧
      ∀ after, init sampleOrder 9 sampleTime store.files = .ok after →
        Connected (store.closedSegments ++ store.openSegment.toList) := by
  refine exists_reached_of (fun store => store.closedSegments.length = 2 ∧
    store.openSegment ≠ none ∧ Connected (store.closedSegments ++ store.openSegment.toList) ∧
      store.closedSegments.Pairwise fun left right => left.firstIndex ≤ right.firstIndex)
    threeAppends (by decide) ?_
  rintro store reached ⟨two, isOpen, connected, sorted⟩
  rcases (sound_of_reachable (by decide) init_sampleStart reached).represents with
    ⟨log, represents⟩
  have detects := (init_detects_gaps_iff represents.stored sorted sampleOrder 9 sampleTime).mpr
    (.inl ⟨connected, fun isNone => absurd isNone isOpen⟩)
  exact ⟨two, fun after starts => (detects after starts).1⟩

/-- A closed segment with one entry. -/
def sampleSegment (firstIndex : ℕ) : NuRaftLogSegment :=
  ((fresh firstIndex sampleTime).withEntry magicAndVersionSize (sampleEntry 1)).asClosed

def gapFiles : Directory :=
  (∅ : Directory).insertAll ([1, 3].map fun firstIndex =>
    ((sampleSegment firstIndex).fileName, segmentHeader ++ records firstIndex [sampleEntry 1]))

set_option maxRecDepth 10000 in
theorem gap_undetected : ∃ after,
    init sampleOrder 9 sampleTime gapFiles = .ok after ∧
      after.firstLogIndex = 1 ∧ after.lastLogIndex = 3 ∧
      after.segments.filter (fun segment => segment.firstIndex ≤ 2 ∧ 2 ≤ segment.lastIndex) = [] ∧
      after.getEntry 2 = .ok none :=
  ⟨(init sampleOrder 9 sampleTime gapFiles).toOption.getD sampleStart, by decide, by decide⟩

/--
If the process stops after a full segment is closed and before the next one is opened, a new store
on the files restores the log if and only if the log begins at 1.
-/
theorem rollover_restores_iff {order : Enumeration Unit Bytes} {maxLogSegmentFileSize : ℕ}
    {createTime : CreateTime} {start store : LogSegmentStore}
    (room : magicAndVersionSize ≤ maxLogSegmentFileSize)
    (starts : init order maxLogSegmentFileSize createTime ∅ = .ok start)
    (reached : ReachableBy (fun store call => some (store.afterCall call)) KeepsRange start store)
    (stored : store.firstLogIndex ≤ store.lastLogIndex) (isFull : store.keepsOpenSegment = false)
    (newOrder : Enumeration Unit Bytes) {newMax : ℕ} (newRoom : magicAndVersionSize ≤ newMax)
    (newTime : CreateTime) :
    (∃ after, init newOrder newMax newTime store.closeOpenSegment.files = .ok after ∧
      (after.firstLogIndex = store.firstLogIndex ∧ after.lastLogIndex = store.lastLogIndex ∧
        ∀ index, store.firstLogIndex ≤ index → index ≤ store.lastLogIndex →
          ∃ entry, store.getEntry index = .ok (some entry) ∧
            after.getEntry index = .ok (some entry)) ∧
      ∀ time entry, ∃ appended,
        appendEntry time entry after = .ok (store.lastLogIndex + 1) appended) ↔
      store.firstLogIndex = 1 := by
  have sound := sound_of_reachable room starts reached
  rcases sound.represents with ⟨log, represents⟩
  rcases represents.closeOpenSegment sound.settled.emptyLast with ⟨closed, noOpen⟩
  have nonempty := represents.entries_ne_nil stored
  have nonemptyClosed := sound.nonemptyClosed.of_closesFull
    (represents.closeOpenSegment_closesFull isFull) closed sound.room
  constructor
  · rintro ⟨after, restarts, ⟨first, -⟩, -⟩
    have found := closed.stored
    rw [noOpen] at found
    have sorted := (pairwise_append.mp closed.chain.pairwise).1.imp_of_mem
      fun isLeft _ before => (Nat.le_trans (nonemptyClosed _ isLeft) (Nat.le_of_lt before))
    rcases found.exists_init sorted newOrder newMax newTime with ⟨others, -, -, isInit⟩
    rcases found.exists_opens others newMax newTime with ⟨opensTo, opens, range⟩
    rw [restarts, if_neg, if_neg (by simp), opens] at isInit
    · cases isInit
      rw [← first]
      exact (range rfl).1
    · rintro ⟨segment, isMember, empty⟩
      exact absurd (nonemptyClosed segment isMember) (Nat.not_le.mpr empty)
  · intro first
    rw [represents.first] at first
    rcases closed.init nonemptyClosed (fun _ => first) nonempty newOrder newRoom newTime with
      ⟨after, restarts, restored, settled, -⟩
    have same := represents.restores restored
    refine ⟨after, restarts, same, fun time entry => ?_⟩
    rcases restored.appendEntry settled time entry with ⟨appended, appends, -⟩
    exact ⟨appended, same.2.1 ▸ appends⟩

set_option maxRecDepth 10000 in
theorem rollover_restores_threeAppends :
    ∃ store after, ReachableBy (fun store call => some (store.afterCall call)) KeepsRange
        sampleStart store ∧
      store.firstLogIndex = 1 ∧ store.lastLogIndex = 3 ∧ store.keepsOpenSegment = false ∧
      init sampleOrder 9 sampleTime store.closeOpenSegment.files = .ok after ∧
      after.firstLogIndex = 1 := by
  simp only [exists_and_left]
  refine exists_reached_of (fun store => store.firstLogIndex = 1 ∧ store.lastLogIndex = 3 ∧
    store.keepsOpenSegment = false) threeAppends (by decide) ?_
  rintro store reached ⟨isFirst, isLast, isFull⟩
  rcases (rollover_restores_iff (by decide) init_sampleStart reached (by omega) isFull sampleOrder
    (show magicAndVersionSize ≤ 9 by decide) sampleTime).mpr isFirst with ⟨after, restarts, same, -⟩
  exact ⟨isFirst, isLast, isFull, after, restarts, same.1.trans isFirst⟩

set_option maxRecDepth 10000 in
theorem rollover_loses_first :
    ∃ store, ReachableBy (fun store call => some (store.afterCall call)) KeepsRange
        sampleStart store ∧
      store.firstLogIndex = 2 ∧ store.lastLogIndex = 3 ∧ store.keepsOpenSegment = false ∧
      (init sampleOrder 9 sampleTime store.closeOpenSegment.files).map (·.firstLogIndex) = .ok 1 :=
  exists_reached (threeAppends ++ [.removeSegment 2]) (by decide)

end LogSegmentStore

end RaftKeeper
