import RaftKeeper.Log.Truncation

/-!
# Starting from the files of a log

`init` finds the segments from the names of the files, in whatever order the directory lists
them, and loads them. From the files of a store that represents a nonempty log it comes back
with a store that represents the same log, provided that no closed segment is empty.
-/

namespace RaftKeeper

open List LogSegmentStore NuRaftLogSegment

open NuRaft (LogEntry)

namespace NuRaftLogSegment

/-- The segment as the name of its file announces it. -/
def found (segment : NuRaftLogSegment) : NuRaftLogSegment :=
  ofFileName segment.fileName segment.name

/-- The segment as `load` leaves it. -/
def loaded (segment : NuRaftLogSegment) : NuRaftLogSegment :=
  { segment with segFd := some (if segment.isOpen then segment.fileSize else 0) }

@[simp]
theorem isOpen_found (segment : NuRaftLogSegment) : segment.found.isOpen = segment.isOpen := by
  cases isOpen : segment.isOpen with
  | true | false => simp [found, ofFileName, name, isOpen]

@[simp]
theorem firstIndex_found (segment : NuRaftLogSegment) :
    segment.found.firstIndex = segment.firstIndex := rfl

variable {segment : NuRaftLogSegment}

theorem lastIndex_found_of_isClosed (isClosed : segment.isOpen = false) :
    segment.found.lastIndex = segment.lastIndex := by
  simp [found, ofFileName, name, isClosed]

theorem Holds.loaded {files : Directory} {entries : List LogEntry}
    (holds : segment.Holds files entries) : segment.loaded.Holds files entries :=
  { holds with }

end NuRaftLogSegment

theorem Contiguous.loaded {files : Directory} {first : ℕ} {segments : List NuRaftLogSegment}
    {entries : List LogEntry} (chain : Contiguous files first segments entries) :
    Contiguous files first (segments.map loaded) entries := by
  induction chain with
  | nil first => exact .nil first
  | cons starts holds _ ih => exact .cons starts holds.loaded ih

namespace LogSegmentStore

variable {segments : List NuRaftLogSegment}

theorem foldlM_add {listing : Listing}
    (named : ∀ segment ∈ segments, segment.fileName = segment.name.print)
    (oneOpen : (segments.filter isOpen).length + listing.openSegment.toList.length ≤ 1) :
    (segments.map (·.fileName)).foldlM Listing.add listing =
      .ok ⟨listing.openSegment.or ((segments.filter isOpen).map (·.found)).head?,
        listing.closedSegments ++ (segments.filter fun segment => !segment.isOpen).map
          (·.found)⟩ := by
  induction segments generalizing listing with
  | nil => simp [pure, Except.pure]
  | cons segment rest ih =>
    have fileName := named segment mem_cons_self
    have parsed : SegmentFileName.parse segment.fileName = some segment.name := by
      rw [fileName, SegmentFileName.parse_print]
    have isLog : (ascii "log_").isPrefixOf segment.fileName = true := by
      rw [fileName]
      exact segment.name.isPrefixOf_print
    have namedRest : ∀ other ∈ rest, other.fileName = other.name.print :=
      fun other isMember => named other (mem_cons_of_mem _ isMember)
    rw [map_cons, foldlM_cons]
    cases isOpen : segment.isOpen with
    | true =>
      rw [filter_cons_of_pos isOpen, length_cons] at oneOpen
      have noOpen : listing.openSegment = none := by
        cases isSome : listing.openSegment with
        | none => rfl
        | some other => simp [isSome] at oneOpen
      have added : listing.add segment.fileName =
          .ok { listing with openSegment := some segment.found } := by
        have foundOpen := segment.isOpen_found
        rw [isOpen, found] at foundOpen
        simp [Listing.add, isLog, parsed, foundOpen, noOpen, found]
      have noMore : rest.filter NuRaftLogSegment.isOpen = [] := by
        rw [← length_eq_zero_iff]
        omega
      rw [added]
      have continues := @ih { listing with openSegment := some segment.found } namedRest (by
        simp [noMore])
      simpa [bind, Except.bind, isOpen, noOpen] using continues
    | false =>
      have added : listing.add segment.fileName =
          .ok { listing with closedSegments := listing.closedSegments ++ [segment.found] } := by
        have foundClosed := segment.isOpen_found
        rw [isOpen, found] at foundClosed
        simp [Listing.add, isLog, parsed, foundClosed, found]
      rw [added]
      have continues := @ih
        { listing with closedSegments := listing.closedSegments ++ [segment.found] } namedRest (by
          simpa [isOpen] using oneOpen)
      simpa [bind, Except.bind, isOpen] using continues

theorem mapM_load {files : Directory}
    (holds : ∀ segment ∈ segments, ∃ part, segment.Holds files part) :
    (segments.map (·.found)).mapM (load files) = .ok (segments.map (·.loaded)) := by
  induction segments with
  | nil => rfl
  | cons segment rest ih =>
    rcases holds segment mem_cons_self with ⟨part, holdsSegment⟩
    have loads : segment.found.load files = .ok segment.loaded := holdsSegment.load
    have others := ih fun other isMember => holds other (mem_cons_of_mem _ isMember)
    simp [mapM_cons, loads, others, bind, Except.bind, pure, Except.pure]

/-- The closed segments and the open one whose files make up a directory, in any order. -/
structure Stored (files : Directory) (closed : List NuRaftLogSegment)
    (opened : Option NuRaftLogSegment) : Prop where
  holds : ∀ segment ∈ closed ++ opened.toList, ∃ entries, segment.Holds files entries
  tidy : Tidy files (closed ++ opened.toList)
  isClosed : ∀ segment ∈ closed, segment.isOpen = false
  isOpen : ∀ segment ∈ opened, segment.isOpen = true
  positive : ∀ segment ∈ closed ++ opened.toList, 0 < segment.firstIndex

/-- The first index of the segments, with the open one at the end. -/
def firstOf (closed : List NuRaftLogSegment) (segment : NuRaftLogSegment) : ℕ :=
  (closed.head?.map (·.firstIndex)).getD segment.firstIndex

/-- The store that the segments are loaded to. -/
def assembled (maxLogSegmentFileSize : ℕ) (files : Directory) (closed : List NuRaftLogSegment)
    (opened : Option NuRaftLogSegment) : LogSegmentStore where
  maxLogSegmentFileSize
  firstLogIndex := (opened.map (firstOf closed)).getD 1
  lastLogIndex := ((opened.or closed.getLast?).map (·.lastIndex)).getD 0
  openSegment := opened.map (·.loaded)
  closedSegments := closed.map (·.loaded)
  files

namespace Stored

variable {files : Directory} {closed : List NuRaftLogSegment} {opened : Option NuRaftLogSegment}
  (stored : Stored files closed opened)

include stored

theorem exists_listing (order : Enumeration Unit Bytes) :
    ∃ listed : List NuRaftLogSegment, listed.Perm closed ∧
      (order.list () files.keys).foldlM Listing.add ⟨none, []⟩ =
        .ok ⟨opened.map (·.found), listed.map (·.found)⟩ := by
  have perm : (order.list () files.keys).Perm ((closed ++ opened.toList).map (·.fileName)) := by
    rw [perm_ext_iff_of_nodup (order.nodup_list () files.keys) stored.tidy.distinct]
    intro fileName
    rw [order.mem_list, Finmap.mem_keys, mem_map]
    constructor
    · exact stored.tidy.noOther fileName
    · rintro ⟨segment, isMember, rfl⟩
      rcases stored.holds segment isMember with ⟨_, holds⟩
      exact Finmap.mem_of_lookup_eq_some holds.content
  rcases (congrFun (congrFun (eq_map_comp_perm _) _) _).mpr perm with ⟨listed, listing, permuted⟩
  have named : ∀ segment ∈ listed, segment.fileName = segment.name.print := by
    intro segment isMember
    rcases stored.holds segment (permuted.mem_iff.mp isMember) with ⟨_, holds⟩
    exact holds.named
  have noneOpen : closed.filter NuRaftLogSegment.isOpen = [] := by
    rw [filter_eq_nil_iff]
    intro other isMember
    simp [stored.isClosed other isMember]
  have allClosed : closed.filter (fun segment => !segment.isOpen) = closed := by
    rw [filter_eq_self]
    intro other isMember
    simp [stored.isClosed other isMember]
  have isOpenOnly : opened.toList.filter NuRaftLogSegment.isOpen = opened.toList ∧
      opened.toList.filter (fun segment => !segment.isOpen) = [] := by
    cases isOpened : opened with
    | none => simp
    | some segment => simp [stored.isOpen segment isOpened]
  have listedOpen : listed.filter NuRaftLogSegment.isOpen = opened.toList := by
    have filtered := permuted.filter NuRaftLogSegment.isOpen
    rw [filter_append, noneOpen, nil_append, isOpenOnly.1] at filtered
    cases opened with
    | none => exact perm_nil.mp filtered
    | some segment => exact perm_singleton.mp filtered
  refine ⟨listed.filter fun segment => !segment.isOpen, ?_, ?_⟩
  · have filtered := permuted.filter fun segment => !segment.isOpen
    rwa [filter_append, allClosed, isOpenOnly.2, append_nil] at filtered
  · rw [listing, foldlM_add named (by cases opened <;> simp [listedOpen]), listedOpen]
    cases opened with
    | none | some segment => rfl

variable (sorted : closed.Pairwise fun left right => left.firstIndex ≤ right.firstIndex)

include sorted

/-- Segments with one first index may be listed, and sorted, in either order. -/
theorem exists_sorted (order : Enumeration Unit Bytes) (start : LogSegmentStore)
    (sameFiles : start.files = files) :
    ∃ others : List NuRaftLogSegment, others.Perm closed ∧
      others.map (·.firstIndex) = closed.map (·.firstIndex) ∧
      loadSegmentMetaData order start =
        if ∃ segment ∈ closed, segment.lastIndex < segment.firstIndex then .error .invalidSegment
        else .ok { start with
          firstLogIndex := (opened.map (firstOf closed)).getD start.firstLogIndex
          lastLogIndex := (opened.map (·.found.lastIndex)).getD start.lastLogIndex
          openSegment := opened.map (·.found)
          closedSegments := others.map (·.found) } := by
  rcases stored.exists_listing order with ⟨listed, perm, listing⟩
  have others : sortSegments (listed.map (·.found)) = (listed.insertionSort fun left right =>
      left.firstIndex ≤ right.firstIndex).map (·.found) :=
    (map_insertionSort _ _ NuRaftLogSegment.found listed fun _ _ _ _ => Iff.rfl).symm
  have permuted := (perm_insertionSort (fun left right : NuRaftLogSegment =>
    left.firstIndex ≤ right.firstIndex) listed).trans perm
  have firsts : (listed.insertionSort fun left right => left.firstIndex ≤ right.firstIndex).map
      (·.firstIndex) = closed.map (·.firstIndex) := by
    apply (permuted.map _).eq_of_pairwise fun _ _ _ _ => le_antisymm
    · exact pairwise_map.mpr (pairwise_insertionSort _ _)
    · exact pairwise_map.mpr sorted
  refine ⟨_, permuted, firsts, ?_⟩
  have invalid : (((listed.insertionSort fun left right => left.firstIndex ≤ right.firstIndex).map
      (·.found)).any fun segment => segment.lastIndex < segment.firstIndex) = true ↔
        ∃ segment ∈ closed, segment.lastIndex < segment.firstIndex := by
    rw [any_map, any_eq_true]
    apply exists_congr
    intro segment
    rw [permuted.mem_iff]
    apply and_congr_right
    intro isMember
    simp [lastIndex_found_of_isClosed (stored.isClosed segment isMember)]
  have first : ∀ segment, (((listed.insertionSort fun left right =>
      left.firstIndex ≤ right.firstIndex).map (·.found)).head?.map (·.firstIndex)).getD segment =
        ((closed.map (·.firstIndex)).head?).getD segment := by
    intro segment
    rw [← firsts, head?_map, head?_map, Option.map_map]
    rfl
  simp only [loadSegmentMetaData, sameFiles, listing, bind, Except.bind, others, invalid, first]
  cases opened with
  | none => rfl
  | some segment => simp [firstOf]

theorem exists_init (order : Enumeration Unit Bytes) (maxLogSegmentFileSize : ℕ)
    (createTime : CreateTime) :
    ∃ others : List NuRaftLogSegment, others.Perm closed ∧
      others.map (·.firstIndex) = closed.map (·.firstIndex) ∧
      init order maxLogSegmentFileSize createTime files =
        if ∃ segment ∈ closed, segment.lastIndex < segment.firstIndex then .error .invalidSegment
        else if ∃ segment ∈ opened, segment.lastIndex < firstOf closed segment then
          .error .emptyOpenSegment
        else
          match openNewSegmentIfNeeded createTime
            (assembled maxLogSegmentFileSize files others opened) with
          | .ok _ after => .ok after
          | .error error _ => .error error := by
  rcases stored.exists_sorted sorted order
    { maxLogSegmentFileSize
      firstLogIndex := 1
      lastLogIndex := 0
      openSegment := none
      closedSegments := []
      files } rfl with ⟨others, perm, firsts, found⟩
  refine ⟨others, perm, firsts, ?_⟩
  have holds : ∀ segment ∈ others, ∃ part, segment.Holds files part :=
    fun segment isMember => stored.holds segment (mem_append_left _ (perm.mem_iff.mp isMember))
  rw [init, found]
  split
  · rfl
  next valid =>
  push Not at valid
  have last : (others.map (·.found)).getLast?.map (·.lastIndex) =
      others.getLast?.map (·.lastIndex) := by
    rw [← getLast?_map, ← getLast?_map, map_map]
    apply congrArg getLast?
    apply map_congr_left
    intro segment isMember
    exact lastIndex_found_of_isClosed (stored.isClosed segment (perm.mem_iff.mp isMember))
  simp only [bind, Except.bind, loadSegments, mapM_load holds, loadOpenSegment, last, assembled]
  clear found
  cases opened with
  | none =>
    simp only [Option.map_none, Option.getD_none, Option.none_or]
    by_cases zero : (others.getLast?.map (·.lastIndex)).getD 0 = 0
    · rw [if_pos zero, zero]
      rfl
    · rw [if_neg zero]
      rfl
  | some segment =>
    rcases stored.holds segment (by simp) with ⟨part, holdsOpen⟩
    have loads : segment.found.load files = .ok segment.loaded := holdsOpen.load
    have first : firstOf others segment = firstOf closed segment := by
      simp only [firstOf, ← head?_map, firsts]
    have positive : 0 < firstOf closed segment := by
      cases closed with
      | nil => exact stored.positive segment (by simp)
      | cons head tail => exact stored.positive head (by simp)
    simp only [Option.map_some, Option.getD_some, Option.some_or, loads, first, Option.mem_some,
      exists_eq_left', show segment.loaded.lastIndex = segment.lastIndex from rfl]
    by_cases short : segment.lastIndex < firstOf closed segment
    · simp [short]
    · rw [if_neg short]
      dsimp only
      rw [if_neg (show ¬ segment.lastIndex = 0 by omega)]
      exact (if_neg short).symm

end Stored

namespace Stored

variable {files : Directory} {closed : List NuRaftLogSegment} {opened : Option NuRaftLogSegment}
  {log : IndexedLog LogEntry}
  (chain : Contiguous files log.first (closed ++ opened.toList) log.entries)

include chain

theorem firstOf_eq {segment : NuRaftLogSegment} (isOpen : opened = some segment) :
    firstOf closed segment = log.first := by
  cases closed with
  | nil =>
    rw [isOpen] at chain
    exact chain.of_singleton.1
  | cons head tail =>
    rw [cons_append] at chain
    exact chain.starts

theorem last_eq (begins : opened = none → log.first = 1) :
    ((opened.or closed.getLast?).map (·.lastIndex)).getD 0 + 1 = log.next := by
  have last := chain.last
  rw [getLast?_append] at last
  rw [IndexedLog.next, ← last]
  cases opened with
  | some segment => simp
  | none =>
    cases closed.getLast? with
    | none => simp [begins rfl]
    | some segment => simp

variable (stored : Stored files closed opened)
  (begins : opened = none → log.first = 1)

include stored begins

/-- Without an open segment the range of the store begins at 1, whatever the segments are. -/
theorem represents (positive : 0 < log.first) (maxLogSegmentFileSize : ℕ) :
    (assembled maxLogSegmentFileSize files closed opened).Represents log := by
  have segments : (assembled maxLogSegmentFileSize files closed opened).segments =
      (closed ++ opened.toList).map (·.loaded) := by
    cases opened with
    | none | some segment => simp [segments, assembled]
  have names : ((closed ++ opened.toList).map (·.loaded)).map (·.fileName) =
      (closed ++ opened.toList).map (·.fileName) := by
    rw [map_map]
    rfl
  refine ⟨positive, ?_, ⟨?_, ?_⟩, ?_, ?_, ?_, ?_, last_eq chain begins⟩
  · rw [segments]
    exact chain.loaded
  · rw [segments, names]
    exact stored.tidy.distinct
  · intro fileName present
    rcases stored.tidy.noOther fileName present with ⟨other, isMember, same⟩
    exact ⟨other.loaded, segments ▸ mem_map_of_mem isMember, same⟩
  · exact forall_mem_map.mpr stored.isClosed
  · intro other isLoaded
    rcases Option.mem_map.mp isLoaded with ⟨segment, isOpen, rfl⟩
    exact stored.isOpen segment isOpen
  · intro other isLoaded
    rcases Option.mem_map.mp isLoaded with ⟨segment, isOpen, rfl⟩
    left
    simp [NuRaftLogSegment.loaded, stored.isOpen segment isOpen]
  · cases isOpen : opened with
    | none => exact (begins isOpen).symm
    | some segment => exact firstOf_eq chain isOpen

theorem init_represents (positive : 0 < log.first)
    (valid : ∀ segment ∈ closed, segment.firstIndex ≤ segment.lastIndex)
    (inRange : ∀ segment ∈ opened, log.first ≤ segment.lastIndex)
    (order : Enumeration Unit Bytes) (maxLogSegmentFileSize : ℕ) (createTime : CreateTime) :
    ∃ after last, init order maxLogSegmentFileSize createTime files = .ok after ∧
      after.Represents log ∧ after.openSegment = some last ∧
      after.maxLogSegmentFileSize = maxLogSegmentFileSize ∧
      (assembled maxLogSegmentFileSize files closed opened).ClosesFull after := by
  have increasing : closed.Pairwise fun left right => left.firstIndex < right.firstIndex := by
    apply (pairwise_append.mp chain.pairwise).1.imp_of_mem
    intro left right isLeft _ before
    exact lt_of_le_of_lt (valid left isLeft) before
  rcases stored.exists_init (increasing.imp le_of_lt) order maxLogSegmentFileSize createTime with
    ⟨others, perm, firsts, starts⟩
  have same : others = closed := by
    apply perm.eq_of_pairwise _ _ increasing
    · intro left right _ _ before after
      exact absurd before (Nat.lt_asymm after)
    · rw [← pairwise_map] at increasing ⊢
      rwa [firsts]
  subst same
  have represented := stored.represents chain begins positive maxLogSegmentFileSize
  rcases represented.openNewSegmentIfNeeded (fun _ _ _ => forall_mem_map.mpr valid) createTime with
    ⟨after, last, opens, representedAfter, isLast, -, sameMax, closesFull⟩
  refine ⟨after, last, ?_, representedAfter, isLast, sameMax, closesFull⟩
  rw [starts, if_neg, if_neg, opens]
  · rintro ⟨segment, isOpen, short⟩
    rw [firstOf_eq chain isOpen] at short
    exact absurd (inRange segment isOpen) (Nat.not_le.mpr short)
  · rintro ⟨segment, isMember, empty⟩
    exact absurd (valid segment isMember) (Nat.not_le.mpr empty)

end Stored

namespace Represents

variable {store : LogSegmentStore} {log : IndexedLog LogEntry} (represents : store.Represents log)

include represents

theorem stored : Stored store.files store.closedSegments store.openSegment where
  holds _ isMember := represents.chain.exists_holds isMember
  tidy := represents.tidy
  isClosed := represents.closed
  isOpen := represents.opened
  positive _ isMember := lt_of_lt_of_le represents.positive (represents.chain.bounds isMember).1

variable {maxLogSegmentFileSize : ℕ}

theorem init (nonemptyClosed : store.NonemptyClosed)
    (begins : store.openSegment = none → log.first = 1) (nonempty : log.entries ≠ [])
    (order : Enumeration Unit Bytes) (room : magicAndVersionSize ≤ maxLogSegmentFileSize)
    (createTime : CreateTime) :
    ∃ after, init order maxLogSegmentFileSize createTime store.files = .ok after ∧
      after.Represents log ∧ after.Settled ∧ after.NonemptyClosed ∧
      after.maxLogSegmentFileSize = maxLogSegmentFileSize := by
  have inRange : ∀ segment ∈ store.openSegment, log.first ≤ segment.lastIndex := by
    intro segment isOpen
    have last := represents.last
    have some := length_pos_iff.mpr nonempty
    rw [IndexedLog.next, ← represents.lastIndex_of_open isOpen] at last
    omega
  rcases represents.stored.init_represents represents.chain begins represents.positive
    nonemptyClosed inRange order maxLogSegmentFileSize createTime with
    ⟨after, last, starts, represented, isLast, sameMax, closesFull⟩
  have nonemptyLoaded : (assembled maxLogSegmentFileSize store.files store.closedSegments
      store.openSegment).NonemptyClosed := forall_mem_map.mpr nonemptyClosed
  have nonemptyAfter := nonemptyLoaded.of_closesFull closesFull represented room
  exact ⟨after, starts, represented, ⟨fun _ _ _ => nonemptyAfter, by simp [isLast]⟩, nonemptyAfter,
    sameMax⟩

theorem init_of_settled (settled : store.Settled) (nonemptyClosed : store.NonemptyClosed)
    (nonempty : log.entries ≠ []) (order : Enumeration Unit Bytes)
    (room : magicAndVersionSize ≤ maxLogSegmentFileSize) (createTime : CreateTime) :
    ∃ after, LogSegmentStore.init order maxLogSegmentFileSize createTime store.files = .ok after ∧
      after.Represents log ∧ after.Settled ∧ after.NonemptyClosed ∧
      after.maxLogSegmentFileSize = maxLogSegmentFileSize := by
  rcases represents.exists_open settled nonempty with ⟨segment, isOpen⟩
  exact represents.init nonemptyClosed (by simp [isOpen]) nonempty order room createTime

end Represents

theorem init_empty (order : Enumeration Unit Bytes) (maxLogSegmentFileSize : ℕ)
    (createTime : CreateTime) :
    ∃ after, init order maxLogSegmentFileSize createTime ∅ = .ok after ∧
      after.Represents ⟨1, []⟩ ∧ after.Settled ∧ after.closedSegments = [] ∧
      after.maxLogSegmentFileSize = maxLogSegmentFileSize := by
  have represents : Represents
      { maxLogSegmentFileSize
        firstLogIndex := 1
        lastLogIndex := 0
        openSegment := none
        closedSegments := []
        files := ∅ } ⟨1, []⟩ := by
    refine ⟨Nat.one_pos, .nil 1, ⟨nodup_nil, ?_⟩, by simp, by simp, by simp, rfl, rfl⟩
    intro fileName present
    exact absurd present Finmap.notMem_empty
  have fresh := represents.withFreshSegment rfl createTime
  refine ⟨_, ?_, fresh, ⟨?_, ?_⟩, rfl, rfl⟩
  · simp [init, loadSegmentMetaData, loadSegments, loadOpenSegment, openNewSegmentIfNeeded,
      keepsOpenSegment, closeOpenSegment, create, sortSegments, bind, Except.bind,
      pure, Except.pure]
  · simp
  · simp

end LogSegmentStore

end RaftKeeper
