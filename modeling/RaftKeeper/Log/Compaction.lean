import RaftKeeper.Log.Refinement

/-!
# Compacting a log

`removeSegment` removes the segments that end before the first index to keep. The end of the range
is corrected by a comparison that is off by one: a range of a single index counts as empty.
-/

namespace RaftKeeper

open List

open NuRaft (LogEntry)

namespace LogSegmentStore

theorem staleLast_iff (store : LogSegmentStore) :
    store.staleLast = true ↔ store.lastLogIndex ≤ store.firstLogIndex := by
  rw [staleLast, decide_eq_true_eq]
  omega

theorem foldl_widenTo {segments : List NuRaftLogSegment} {store : LogSegmentStore}
    (inside : ∀ segment ∈ segments, store.firstLogIndex ≤ segment.firstIndex) :
    segments.foldl (fun store segment => store.widenTo segment) store = store := by
  induction segments with
  | nil => rfl
  | cons segment rest ih =>
    have same : store.widenTo segment = store :=
      if_neg (Nat.not_lt.mpr (inside segment mem_cons_self))
    rw [foldl_cons, same]
    exact ih fun other isMember => inside other (mem_cons_of_mem _ isMember)

theorem widenTo_first {segment : NuRaftLogSegment} {store : LogSegmentStore}
    (lower : segment.firstIndex ≤ store.firstLogIndex)
    (upper : store.firstLogIndex ≤ store.lastLogIndex) :
    store.widenTo segment = { store with firstLogIndex := segment.firstIndex } := by
  rcases Nat.eq_or_lt_of_le lower with same | before
  · rw [widenTo, if_neg (by omega), same]
  · have notStale : staleLast { store with firstLogIndex := segment.firstIndex } = false := by
      rw [Bool.eq_false_iff, ne_eq, staleLast_iff]
      exact Nat.not_le.mpr (lt_of_lt_of_le before upper)
    simp only [widenTo, if_pos before, notStale]
    rfl

theorem segments_removeBefore (firstIndexKept : ℕ) (store : LogSegmentStore) :
    (store.removeBefore firstIndexKept).segments =
      store.segments.filter fun segment => !decide (segment.lastIndex < firstIndexKept) := by
  simp [segments, removeBefore, Option.toList_filter]

namespace Represents

variable {store : LogSegmentStore} {log : IndexedLog LogEntry} {firstIndexKept : ℕ}

theorem removeSegment_all (represents : store.Represents log)
    (above : store.lastLogIndex < firstIndexKept) (below : log.first < firstIndexKept) :
    store.Yields ⟨firstIndexKept, []⟩ (store.removeSegment firstIndexKept) := by
  have last := represents.last
  have noSegments : (store.removeBefore firstIndexKept).segments = [] := by
    rw [segments_removeBefore, filter_eq_nil_iff]
    intro segment isMember
    have bounds := represents.chain.bounds isMember
    rw [IndexedLog.next] at last
    simp only [Bool.not_eq_true', decide_eq_false_iff_not, Nat.not_lt, Nat.not_le]
    omega
  have noClosed : (store.removeBefore firstIndexKept).closedSegments = [] :=
    (append_eq_nil_iff.mp noSegments).1
  have noOpen : (store.removeBefore firstIndexKept).openSegment = none := by
    simpa using (append_eq_nil_iff.mp noSegments).2
  have removes : store.removeSegment firstIndexKept =
      { store with
        files := (store.removeBefore firstIndexKept).files
        closedSegments := []
        openSegment := none
        firstLogIndex := firstIndexKept
        lastLogIndex := firstIndexKept - 1 } := by
    have stale : staleLast { store.removeBefore firstIndexKept with
        firstLogIndex := firstIndexKept } = true := by
      rw [staleLast_iff]
      exact Nat.le_of_lt above
    have notAbove : ¬ firstIndexKept ≤ store.firstLogIndex := by
      rw [represents.first]
      omega
    simp only [LogSegmentStore.removeSegment, if_neg notAbove, noClosed, noOpen,
      Option.toList_none, append_nil, foldl_nil]
    simp only [noClosed, noOpen] at stale
    rw [if_pos stale]
    rfl
  have tidy := represents.tidy.removeFiles fun segment =>
    decide (segment.lastIndex < firstIndexKept)
  rw [← segments_removeBefore, noSegments] at tidy
  rw [removes]
  refine ⟨⟨?_, .nil _, tidy, by simp, by simp, by simp, rfl, ?_⟩, ⟨by simp, by simp⟩, rfl,
    by simp [ClosesFull]⟩
  · simp only
    omega
  · simp only [IndexedLog.next, length_nil]
    omega

theorem exists_firstKept (represents : store.Represents log) (below : log.first ≤ firstIndexKept)
    (inside : firstIndexKept ≤ store.lastLogIndex) :
    ∃ segment later front back, (store.removeBefore firstIndexKept).segments = segment :: later ∧
      log.entries = front ++ back ∧ segment.firstIndex = log.first + front.length ∧
      Contiguous store.files segment.firstIndex (segment :: later) back ∧
      segment.firstIndex ≤ firstIndexKept ∧
      ∀ other ∈ store.segments, other.firstIndex = firstIndexKept →
        segment.firstIndex = firstIndexKept := by
  have last := represents.last
  rw [IndexedLog.next] at last
  rcases represents.chain.split_at below (by omega) with ⟨before, segment, later, front, part, back,
    segments, entries, chainBefore, holds, starts, chainLater, inRange⟩
  have range := holds.range
  refine ⟨segment, later, front, part ++ back, ?_, entries, starts, ?_, inRange.1, ?_⟩
  · have keptLater : ∀ other ∈ segment :: later, ¬ other.lastIndex < firstIndexKept := by
      intro other isMember
      rcases mem_cons.mp isMember with rfl | isLater
      · omega
      · have bounds := chainLater.bounds isLater
        omega
    have removedBefore : ∀ other ∈ before, other.lastIndex < firstIndexKept := by
      intro other isMember
      have bounds := chainBefore.bounds isMember
      omega
    rw [segments_removeBefore, segments, filter_append, filter_eq_nil_iff.mpr,
      nil_append, filter_eq_self.mpr]
    · intro other isMember
      simpa using keptLater other isMember
    · intro other isMember
      simpa using removedBefore other isMember
  · exact .cons rfl holds chainLater
  · intro other isMember isStart
    rw [segments] at isMember
    rcases mem_append.mp isMember with isBefore | isAfter
    · have bounds := chainBefore.bounds isBefore
      omega
    · rcases mem_cons.mp isAfter with rfl | isLater
      · exact isStart
      · have bounds := chainLater.bounds isLater
        omega

theorem removeSegment_eq (represents : store.Represents log) (below : log.first < firstIndexKept)
    (inside : firstIndexKept ≤ store.lastLogIndex) {segment : NuRaftLogSegment}
    {later : List NuRaftLogSegment} {back : List LogEntry}
    (kept : (store.removeBefore firstIndexKept).segments = segment :: later)
    (chain : Contiguous store.files segment.firstIndex (segment :: later) back)
    (lower : segment.firstIndex ≤ firstIndexKept) :
    store.removeSegment firstIndexKept =
      { store.removeBefore firstIndexKept with
        firstLogIndex := segment.firstIndex
        lastLogIndex :=
          if store.lastLogIndex ≤ segment.firstIndex then segment.firstIndex - 1
          else store.lastLogIndex } := by
  have notAbove : ¬ firstIndexKept ≤ store.firstLogIndex := by
    rw [represents.first]
    omega
  have first := @widenTo_first segment
    { store.removeBefore firstIndexKept with firstLogIndex := firstIndexKept } lower inside
  have others := @foldl_widenTo later
    { store.removeBefore firstIndexKept with firstLogIndex := segment.firstIndex }
    (fun other isMember => (chain.bounds (mem_cons_of_mem _ isMember)).1)
  have widened : ((store.removeBefore firstIndexKept).closedSegments ++
      (store.removeBefore firstIndexKept).openSegment.toList).foldl
        (fun store segment => store.widenTo segment)
        { store.removeBefore firstIndexKept with firstLogIndex := firstIndexKept } =
      { store.removeBefore firstIndexKept with firstLogIndex := segment.firstIndex } := by
    rw [← segments, kept, foldl_cons, first]
    exact others
  simp only [LogSegmentStore.removeSegment, if_neg notAbove, widened]
  by_cases single : store.lastLogIndex ≤ segment.firstIndex
  · rw [if_pos ((staleLast_iff _).mpr single), if_pos single]
  · rw [if_neg (mt (staleLast_iff _).mp single), if_neg single]
    rfl

theorem removeSegment_some (represents : store.Represents log) (settled : store.Settled)
    (below : log.first < firstIndexKept) (inside : firstIndexKept ≤ store.lastLogIndex)
    (notSingle : ¬ (firstIndexKept = store.lastLogIndex ∧
      ∃ segment ∈ store.segments, segment.firstIndex = firstIndexKept)) :
    ∃ first, log.first ≤ first ∧ first ≤ firstIndexKept ∧
      store.Yields (log.keepFrom first) (store.removeSegment firstIndexKept) ∧
      (store.removeSegment firstIndexKept).lastLogIndex = store.lastLogIndex := by
  rcases represents.exists_firstKept below.le inside with
    ⟨segment, later, front, back, kept, entries, starts, chain, lower, isStart⟩
  have isMember : segment ∈ store.segments := by
    have isKept : segment ∈ (store.removeBefore firstIndexKept).segments := by simp [kept]
    rw [segments_removeBefore] at isKept
    exact mem_of_mem_filter isKept
  have notStale : ¬ store.lastLogIndex ≤ segment.firstIndex := by
    intro single
    exact notSingle ⟨by omega, segment, isMember, by omega⟩
  have removes := represents.removeSegment_eq below inside kept chain lower
  rw [if_neg notStale] at removes
  have keptEntries : log.keepFrom segment.firstIndex = ⟨segment.firstIndex, back⟩ := by
    rw [IndexedLog.keepFrom, entries, starts, Nat.add_sub_cancel_left, drop_left]
  have files : ∀ other ∈ segment :: later,
      (store.removeBefore firstIndexKept).files.lookup other.fileName =
        store.files.lookup other.fileName := by
    intro other isKept
    rw [← kept, segments_removeBefore, mem_filter] at isKept
    exact represents.tidy.lookup_removeFiles _ isKept.1 (by simpa using isKept.2)
  have tidy := represents.tidy.removeFiles fun segment =>
    decide (segment.lastIndex < firstIndexKept)
  rw [← segments_removeBefore, kept] at tidy
  have isOpenBefore : ∀ other ∈ (store.removeBefore firstIndexKept).openSegment,
      other ∈ store.openSegment := fun other isOpen => (Option.mem_filter_iff.mp isOpen).1
  have isClosedBefore : ∀ other ∈ (store.removeBefore firstIndexKept).closedSegments,
      other ∈ store.closedSegments := fun other isClosed => mem_of_mem_filter isClosed
  refine ⟨segment.firstIndex, by omega, lower, ?_, by rw [removes]⟩
  rw [removes, keptEntries]
  refine ⟨⟨?_, ?_, ?_, ?_, ?_, ?_, rfl, ?_⟩, ⟨?_, ?_⟩, rfl, ?_⟩
  · have positive := represents.positive
    simp only
    omega
  · have chainKept := chain.congr files
    rw [← kept] at chainKept
    exact chainKept
  · rw [← kept] at tidy
    exact tidy
  · intro other isClosed
    exact represents.closed other (isClosedBefore other isClosed)
  · intro other isOpen
    exact represents.opened other (isOpenBefore other isOpen)
  · intro other isOpen
    exact represents.writes other (isOpenBefore other isOpen)
  · have last := represents.last
    simp only [IndexedLog.next, entries, length_append] at last ⊢
    omega
  · intro other isOpen isEmpty closed isClosed
    exact settled.emptyLast other (isOpenBefore other isOpen) isEmpty closed
      (isClosedBefore closed isClosed)
  · intro noOpen
    cases isOpen : store.openSegment with
    | none => simp [removeBefore, settled.noneOpen isOpen]
    | some last =>
      have ends := represents.lastIndex_of_open isOpen
      simp only [removeBefore, isOpen, Option.filter_eq_none_iff] at noOpen
      exact absurd (by simp; omega) (noOpen last rfl)
  · intro other isClosed
    exact .inl (isClosedBefore other isClosed)

end Represents

def StaysAbove (store : LogSegmentStore) : LogCall → Prop
  | .appendEntry _ _ => True
  | .writeAt _ index _ => store.firstLogIndex ≤ previousIndex index + 1
  | .truncateLog lastIndexKept => store.firstLogIndex ≤ lastIndexKept + 1

instance (store : LogSegmentStore) : (call : LogCall) → Decidable (store.StaysAbove call)
  | .appendEntry _ _ => .isTrue trivial
  | .writeAt _ _ _ => inferInstanceAs (Decidable (_ ≤ _))
  | .truncateLog _ => inferInstanceAs (Decidable (_ ≤ _))

theorem FullClosed.not_reopensSmall {store : LogSegmentStore} (full : store.FullClosed)
    (lastIndexKept : ℕ) : ¬ store.ReopensSmall lastIndexKept := by
  rintro ⟨-, segment, isMember, -, -, small⟩
  have large := full segment isMember
  omega

section

variable {store : LogSegmentStore} {log : IndexedLog LogEntry}

theorem Represents.leaves_writeAt (represents : store.Represents log) (settled : store.Settled)
    (full : store.FullClosed) (createTime : CreateTime) {index : ℕ} (entry : LogEntry)
    (above : store.firstLogIndex ≤ previousIndex index + 1) :
    ∃ after, after.first = log.first ∧
      store.Yields after ((perform (.writeAt createTime index entry)).leaves store) := by
  rw [represents.first] at above
  rcases represents.truncateLog settled above (full.not_reopensSmall _) with
    ⟨happened, middle, truncates, yields⟩
  by_cases isNext : index = middle.lastLogIndex + 1
  · rcases yields.represents.appendEntry yields.settled createTime entry with
      ⟨after, appends, yieldsAfter⟩
    refine ⟨(log.keepTo (previousIndex index)).append entry, rfl, ?_⟩
    have writes : LogSegmentStore.writeAt createTime index entry store = .ok () after := by
      simp only [LogSegmentStore.writeAt, bind, EStateM.bind, truncates,
        EStateM.get_apply, if_pos isNext, appends]
      rfl
    simp only [StoreCall.leaves, perform, writes]
    exact ⟨yieldsAfter.represents, yieldsAfter.settled, yieldsAfter.sameMax.trans yields.sameMax,
      yields.closesFull.trans yieldsAfter.closesFull yields.sameMax⟩
  · refine ⟨log.keepTo (previousIndex index), rfl, ?_⟩
    have throws : LogSegmentStore.writeAt createTime index entry store =
        .error .outOfRange middle := by
      simp only [LogSegmentStore.writeAt, bind, EStateM.bind, truncates,
        EStateM.get_apply, if_neg isNext]
      rfl
    simp only [StoreCall.leaves, perform, throws]
    exact yields

theorem Represents.leaves (represents : store.Represents log) (settled : store.Settled)
    (full : store.FullClosed) {call : LogCall} (above : store.StaysAbove call) :
    ∃ after, after.first = log.first ∧ store.Yields after ((perform call).leaves store) := by
  cases call with
  | appendEntry createTime entry =>
    rcases represents.appendEntry settled createTime entry with ⟨after, appends, yields⟩
    have performs : perform (.appendEntry createTime entry) store = .ok () after :=
      discard_of_ok appends
    exact ⟨log.append entry, rfl, by simpa only [StoreCall.leaves, performs] using yields⟩
  | writeAt createTime index entry =>
    exact represents.leaves_writeAt settled full createTime entry above
  | truncateLog lastIndexKept =>
    have lower : store.firstLogIndex ≤ lastIndexKept + 1 := above
    rw [represents.first] at lower
    rcases represents.truncateLog settled lower (full.not_reopensSmall _) with
      ⟨happened, after, truncates, yields⟩
    have performs : perform (.truncateLog lastIndexKept) store = .ok () after :=
      discard_of_ok truncates
    exact ⟨log.keepTo lastIndexKept, rfl, by simpa only [StoreCall.leaves, performs] using yields⟩

end

/-- The store is made from the first one by calls, whether they throw or not. -/
def Built (start store : LogSegmentStore) : Prop :=
  ReachableBy (fun store call => some ((perform call).leaves store)) (fun _ _ => True) start store

/-- The compaction would keep the last entry alone, and a segment begins with it. -/
def CutsLast (store : LogSegmentStore) (firstIndexKept : ℕ) : Prop :=
  store.firstLogIndex < firstIndexKept ∧ firstIndexKept = store.lastLogIndex ∧
    ∃ segment ∈ store.segments, segment.firstIndex = firstIndexKept

instance (store : LogSegmentStore) (firstIndexKept : ℕ) :
    Decidable (store.CutsLast firstIndexKept) :=
  inferInstanceAs (Decidable (_ ∧ _ ∧ _))

theorem Built.represents {order : Enumeration Unit Bytes} {maxLogSegmentFileSize : ℕ}
    {createTime : CreateTime} {start store : LogSegmentStore}
    (starts : init order maxLogSegmentFileSize createTime ∅ = .ok start)
    (built : start.Built store) :
    ∃ log, log.first = 1 ∧ store.Represents log ∧ store.Settled ∧ store.FullClosed := by
  apply ReachableBy.invariant (fun store => ∃ log : IndexedLog LogEntry, log.first = 1 ∧
    store.Represents log ∧ store.Settled ∧ store.FullClosed) _ _ built
  · rcases init_empty order maxLogSegmentFileSize createTime with
      ⟨after, isStart, represents, settled, noClosed, -⟩
    rw [starts] at isStart
    cases isStart
    refine ⟨⟨1, []⟩, rfl, represents, settled, ?_⟩
    rw [FullClosed, noClosed]
    simp
  · rintro before after call ⟨log, first, represents, settled, full⟩ - moves
    cases moves
    have above : before.StaysAbove call := by
      cases call with
      | appendEntry _ _ => trivial
      | writeAt _ _ _ | truncateLog _ =>
        rw [StaysAbove, represents.first, first]
        omega
    rcases represents.leaves settled full above with ⟨logAfter, sameFirst, yields⟩
    exact ⟨logAfter, sameFirst.trans first, yields.represents, yields.settled,
      full.of_closesFull yields.closesFull yields.sameMax⟩

/-- What is asked of a compaction: the entries from the index on stay. -/
structure KeepsSuffix (store after : LogSegmentStore) (firstIndexKept : ℕ) : Prop where
  inside : firstIndexKept ≤ store.lastLogIndex →
    after.lastLogIndex = store.lastLogIndex ∧ after.firstLogIndex ≤ firstIndexKept ∧
      (∀ index, firstIndexKept ≤ index → index ≤ store.lastLogIndex →
        ∃ entry, store.getEntry index = .ok (some entry) ∧
          after.getEntry index = .ok (some entry)) ∧
      ∀ createTime entry, ∃ appended,
        appendEntry createTime entry after = .ok (store.lastLogIndex + 1) appended
  above : store.lastLogIndex < firstIndexKept →
    after.lastLogIndex < after.firstLogIndex ∧ (∀ index, after.getEntry index = .ok none) ∧
      ∀ createTime entry, ∃ appended, appendEntry createTime entry after =
        .ok firstIndexKept appended

/-- `removeSegment` keeps the suffix unless it consists of the last index alone and that begins a
segment. -/
theorem removeSegment_keepsSuffix_iff {order : Enumeration Unit Bytes} {maxLogSegmentFileSize : ℕ}
    {createTime : CreateTime} {start store : LogSegmentStore}
    (starts : init order maxLogSegmentFileSize createTime ∅ = .ok start)
    (built : start.Built store) {firstIndexKept : ℕ}
    (below : store.firstLogIndex < firstIndexKept) :
    store.KeepsSuffix (store.removeSegment firstIndexKept) firstIndexKept ↔
      ¬ store.CutsLast firstIndexKept := by
  rcases built.represents starts with ⟨log, -, represents, settled, -⟩
  have last := represents.last
  have belowLog := below
  rw [represents.first] at belowLog
  constructor
  · rintro keeps ⟨-, isLast, segment, isMember, isStart⟩
    rcases represents.exists_firstKept belowLog.le isLast.le with
      ⟨first, later, front, back, kept, -, -, chain, lower, starts⟩
    have single := starts segment isMember isStart
    have removes := represents.removeSegment_eq belowLog isLast.le kept chain lower
    rw [if_pos (by omega)] at removes
    have same := (keeps.inside isLast.le).1
    rw [removes] at same
    simp only at same
    omega
  · intro notCut
    constructor
    · intro inside
      rcases represents.removeSegment_some settled belowLog inside
        (fun single => notCut ⟨below, single⟩) with ⟨first, lower, upper, yields, sameLast⟩
      refine ⟨sameLast, ?_, ?_, ?_⟩
      · rw [yields.represents.first]
        exact upper
      · intro index isKept isStored
        have stored : (log.get index).isSome := IndexedLog.get_isSome_iff.mpr ⟨by omega, by omega⟩
        rcases Option.isSome_iff_exists.mp stored with ⟨entry, found⟩
        refine ⟨entry, by rw [represents.getEntry, found], ?_⟩
        rw [yields.represents.getEntry, log.get_keepFrom lower, if_pos (by omega), found]
      · intro createTime entry
        rcases yields.represents.appendEntry yields.settled createTime entry with
          ⟨appended, appends, -⟩
        exact ⟨appended, sameLast ▸ appends⟩
    · intro above
      have yields := represents.removeSegment_all above belowLog
      have first := yields.represents.first
      have lastAfter := yields.represents.last
      simp only [IndexedLog.next, length_nil] at first lastAfter
      refine ⟨by omega, ?_, ?_⟩
      · intro index
        rw [yields.represents.getEntry]
        simp [IndexedLog.get]
      · intro createTime entry
        rcases yields.represents.appendEntry yields.settled createTime entry with
          ⟨appended, appends, -⟩
        refine ⟨appended, ?_⟩
        rw [appends, lastAfter, Nat.add_zero]

def compactionRun : List LogCall :=
  [.appendEntry sampleTime (sampleEntry 1), .appendEntry sampleTime (sampleEntry 2),
    .appendEntry sampleTime (sampleEntry 3)]

set_option maxRecDepth 10000 in
theorem removeSegment_keepsSuffix_compactionRun :
    ∃ store, sampleStart.Built store ∧ store.firstLogIndex < 2 ∧ store.lastLogIndex = 3 ∧
      store.KeepsSuffix (store.removeSegment 2) 2 := by
  refine exists_reached_of (fun store => store.firstLogIndex < 2 ∧ store.lastLogIndex = 3 ∧
    ¬ store.CutsLast 2) compactionRun (by decide) ?_
  rintro store built ⟨below, last, keepsLast⟩
  exact ⟨below, last, (removeSegment_keepsSuffix_iff init_sampleStart built below).mpr keepsLast⟩

set_option maxRecDepth 10000 in
theorem removeSegment_loses_last :
    ∃ store, sampleStart.Built store ∧ store.firstLogIndex < 3 ∧ 3 ≤ store.lastLogIndex ∧
      store.getEntry 3 = .ok (some (sampleEntry 3)) ∧
      (store.removeSegment 3).lastLogIndex = 2 ∧ (store.removeSegment 3).getEntry 3 = .ok none := by
  exact exists_reached compactionRun (by decide)

end LogSegmentStore

end RaftKeeper
