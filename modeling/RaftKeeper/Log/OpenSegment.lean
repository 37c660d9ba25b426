import RaftKeeper.Log.SegmentStore

/-!
# The open segment

Whatever the directory a store was opened on, the open segment is the last one: it ends where
the log ends. This needs nothing of what the files hold.
-/

namespace RaftKeeper

open Except LogSegmentStore NuRaftLogSegment

open NuRaft (LogEntry)

namespace LogSegmentStore

def OpenLast (store : LogSegmentStore) : Prop :=
  ∀ segment ∈ store.openSegment,
    segment.firstIndex ≤ segment.lastIndex + 1 ∧ segment.lastIndex = store.lastLogIndex

def InOpen (store : LogSegmentStore) (index : ℕ) : Prop :=
  ∃ segment ∈ store.openSegment, segment.firstIndex ≤ index ∧ index ≤ segment.lastIndex

instance (store : LogSegmentStore) (index : ℕ) : Decidable (store.InOpen index) :=
  inferInstanceAs (Decidable (∃ segment ∈ store.openSegment, _))

def truncateBefore (index : ℕ) : StoreCall Unit := do
  let _ ← truncateLog (previousIndex index)
  let store ← get
  if index = store.lastLogIndex + 1 then pure () else throw .outOfRange

variable {store : LogSegmentStore}

theorem range_truncate (files : Directory) {segment : NuRaftLogSegment} {lastIndexKept : ℕ}
    (inside : lastIndexKept ≤ segment.lastIndex) :
    (segment.truncate files lastIndexKept).2.2.firstIndex = segment.firstIndex ∧
      (segment.truncate files lastIndexKept).2.2.lastIndex = lastIndexKept := by
  have sameRange : (segment.reopenClosedSegment files).2.firstIndex = segment.firstIndex ∧
      (segment.reopenClosedSegment files).2.lastIndex = segment.lastIndex := by
    rw [reopenClosedSegment]
    split <;> exact ⟨rfl, rfl⟩
  rw [truncate]
  split
  · exact ⟨sameRange.1, by simp only [sameRange.2]; omega⟩
  · exact ⟨sameRange.1, rfl⟩

variable {segment : NuRaftLogSegment} {lastIndexKept : ℕ}

theorem mem_of_lastSegment (isLast : store.lastSegment lastIndexKept = some segment) :
    segment.firstIndex ≤ lastIndexKept ∧ lastIndexKept ≤ segment.lastIndex := by
  rw [lastSegment, Option.or_eq_some_iff] at isLast
  rcases isLast with isOpen | ⟨-, isClosed⟩
  · simpa using (Option.filter_eq_some_iff.mp isOpen).2
  · simpa using (List.mem_filter.mp (List.mem_of_getLast? isClosed)).2

theorem lastSegment_of_open (isOpen : store.openSegment = some segment)
    (lower : segment.firstIndex ≤ lastIndexKept) (upper : lastIndexKept ≤ segment.lastIndex) :
    store.lastSegment lastIndexKept = some segment := by
  simp [lastSegment, isOpen, Option.filter, lower, upper]

theorem OpenLast.truncateLog (openLast : store.OpenLast) (lastIndexKept : ℕ) :
    ∃ happened after, truncateLog lastIndexKept store = .ok happened after ∧
      after.OpenLast ∧ after.lastLogIndex = min store.lastLogIndex lastIndexKept ∧
      ∀ index ≤ lastIndexKept, store.InOpen index → after.InOpen index := by
  rw [LogSegmentStore.truncateLog]
  split
  · rename_i above
    exact ⟨false, store, rfl, openLast, by omega, fun _ _ inOpen => inOpen⟩
  · rename_i below
    cases isLast : store.lastSegment lastIndexKept with
    | none =>
      -- An open segment that stays would hold the last index to keep.
      have noOpen : (store.removeAfter lastIndexKept).openSegment = none := by
        rw [removeAfter, Option.filter_eq_none_iff]
        intro segment isOpen
        have ends := openLast segment isOpen
        have notLast : ¬ segment.firstIndex ≤ lastIndexKept := by
          intro lower
          rw [lastSegment_of_open isOpen lower (by omega)] at isLast
          cases isLast
        simpa using notLast
      refine ⟨true, _, rfl, ?_, by simp only; omega, ?_⟩
      · intro segment isOpen
        simp [noOpen] at isOpen
      · rintro index notAbove ⟨segment, isOpen, lower, upper⟩
        have ends := openLast segment isOpen
        rw [lastSegment_of_open isOpen (by omega) (by omega)] at isLast
        cases isLast
    | some segment =>
      have inside := mem_of_lastSegment isLast
      have range := @range_truncate (store.removeAfter lastIndexKept).files segment lastIndexKept
        inside.2
      simp only [range.2, ne_eq, not_true_eq_false, and_false, if_false]
      refine ⟨true, _, rfl, ?_, by simp only; omega, ?_⟩
      · intro truncated isTruncated
        cases isTruncated
        exact ⟨by omega, range.2⟩
      · rintro index notAbove ⟨opened, isOpen, lower, upper⟩
        have ends := openLast opened isOpen
        rw [lastSegment_of_open isOpen (by omega) (by omega)] at isLast
        cases isLast
        exact ⟨_, rfl, by omega, by omega⟩

theorem leaves_truncateBefore (index : ℕ) (store : LogSegmentStore) :
    (truncateBefore index).leaves store = (truncateLog (previousIndex index)).leaves store := by
  simp only [StoreCall.leaves, truncateBefore, bind, EStateM.bind]
  cases truncateLog (previousIndex index) store with
  | error _ _ => rfl
  | ok _ after =>
    simp only [EStateM.get_apply]
    by_cases isNext : index = after.lastLogIndex + 1
    · rw [if_pos isNext]
      rfl
    · rw [if_neg isNext]
      rfl

theorem OpenLast.truncateBefore (openLast : store.OpenLast) (index : ℕ) :
    ∃ after, (LogSegmentStore.truncateBefore index).leaves store = after ∧
      after.OpenLast ∧ after.lastLogIndex = min store.lastLogIndex (previousIndex index) ∧
      ∀ other ≤ previousIndex index, store.InOpen other → after.InOpen other := by
  rcases openLast.truncateLog (previousIndex index) with
    ⟨happened, after, truncates, openLastAfter, last, inOpen⟩
  refine ⟨after, ?_, openLastAfter, last, inOpen⟩
  rw [leaves_truncateBefore, StoreCall.leaves, truncates]

variable {files : Directory} {createTime : CreateTime}

theorem segment_of_create {firstIndex : ℕ} {created : Directory × NuRaftLogSegment}
    (creates : create files firstIndex createTime = .ok created) :
    created.2 = .fresh firstIndex createTime := by
  simp only [create] at creates
  split at creates
  · cases creates
  · cases creates
    rfl

variable {entry : LogEntry}

theorem segment_of_appendEntry {written : Directory × NuRaftLogSegment}
    (writes : segment.appendEntry files entry = .ok written) :
    written.2.firstIndex = segment.firstIndex ∧ written.2.lastIndex = segment.lastIndex + 1 := by
  rw [NuRaftLogSegment.appendEntry] at writes
  split at writes
  · cases writes
    exact ⟨rfl, rfl⟩
  · cases writes

theorem OpenLast.openNewSegmentIfNeeded (openLast : store.OpenLast) (createTime : CreateTime) :
    ∃ after, (openNewSegmentIfNeeded createTime).leaves store = after ∧
      after.OpenLast ∧ after.lastLogIndex = store.lastLogIndex ∧
      (store.keepsOpenSegment = true → after = store) := by
  have sameLast : store.closeOpenSegment.lastLogIndex = store.lastLogIndex := by
    rw [closeOpenSegment]
    split <;> rfl
  have noOpen : store.closeOpenSegment.openSegment = none := by
    rw [closeOpenSegment]
    split
    · rename_i isNone
      exact isNone
    · rfl
  rw [StoreCall.leaves, LogSegmentStore.openNewSegmentIfNeeded]
  by_cases keeps : store.keepsOpenSegment = true
  · rw [if_pos keeps]
    exact ⟨store, rfl, openLast, rfl, fun _ => rfl⟩
  · rw [if_neg keeps]
    cases creates : create store.closeOpenSegment.files
        (store.closeOpenSegment.lastLogIndex + 1) createTime with
    | error _ =>
      simp only [creates]
      refine ⟨_, rfl, ?_, sameLast, fun has => absurd has keeps⟩
      intro segment isOpen
      simp [noOpen] at isOpen
    | ok created =>
      simp only [creates]
      refine ⟨_, rfl, ?_, sameLast, fun has => absurd has keeps⟩
      intro segment isOpen
      cases isOpen
      rw [segment_of_create creates]
      exact ⟨by simp [fresh], rfl⟩

variable {index : ℕ} {after : LogSegmentStore}

theorem OpenLast.appendToOpenSegment (openLast : store.OpenLast) (entry : LogEntry)
    (appends : appendToOpenSegment entry store = .ok index after) :
    index = store.lastLogIndex + 1 ∧ after.OpenLast ∧ after.lastLogIndex = index ∧
      after.InOpen index ∧ ∀ other, store.InOpen other → after.InOpen other := by
  cases isOpen : store.openSegment with
  | none =>
    rw [LogSegmentStore.appendToOpenSegment, isOpen] at appends
    cases appends
  | some segment =>
    have ends := openLast segment isOpen
    simp only [LogSegmentStore.appendToOpenSegment, isOpen] at appends
    cases writes : segment.appendEntry store.files entry with
    | error _ =>
      rw [writes] at appends
      cases appends
    | ok written =>
      rw [writes] at appends
      cases appends
      rcases segment_of_appendEntry writes with ⟨first, last⟩
      refine ⟨by omega, ?_, rfl, ⟨written.2, rfl, by omega, le_rfl⟩, ?_⟩
      · intro appended isAppended
        cases isAppended
        exact ⟨by omega, rfl⟩
      · rintro other ⟨opened, isOpened, lower, upper⟩
        rw [isOpen] at isOpened
        cases isOpened
        exact ⟨written.2, rfl, by omega, by omega⟩

theorem OpenLast.flush_le (openLast : store.OpenLast) (flushes : store.flush = .ok index) :
    index ≤ store.lastLogIndex := by
  rw [flush] at flushes
  split at flushes
  · cases flushes
  · rename_i segment isOpen
    split at flushes
    · cases flushes
      exact (openLast segment isOpen).2.le
    · cases flushes

theorem appendToOpenSegment_of_error {error : LogError}
    (throws : appendToOpenSegment entry store = .error error after) :
    after = store := by
  rw [appendToOpenSegment] at throws
  split at throws
  · cases throws
    rfl
  · split at throws
    · cases throws
      rfl
    · cases throws

theorem firstIndex_of_load {loaded : NuRaftLogSegment} (loads : segment.load files = .ok loaded) :
    loaded.firstIndex ≤ loaded.lastIndex + 1 := by
  rw [NuRaftLogSegment.load] at loads
  split at loads
  · cases loads
  · rcases bind_eq_ok_iff.mp loads with ⟨version, -, reads⟩
    rcases bind_eq_ok_iff.mp reads with ⟨offsets, -, checks⟩
    dsimp only at checks
    split at checks
    · cases checks
    · cases checks
      simp only
      omega

variable {loaded : LogSegmentStore}

theorem openLast_of_loadOpenSegment (loads : store.loadOpenSegment = .ok loaded) :
    loaded.OpenLast ∧ ∀ segment ∈ loaded.openSegment, loaded.firstLogIndex ≤ segment.lastIndex := by
  rw [loadOpenSegment] at loads
  split at loads
  · rename_i noOpen
    cases loads
    simp [OpenLast, noOpen]
  · rcases bind_eq_ok_iff.mp loads with ⟨last, isLoaded, checks⟩
    split at checks
    · cases checks
    · rename_i inside
      cases checks
      constructor
      · intro opened isOpened
        cases isOpened
        exact ⟨firstIndex_of_load isLoaded, rfl⟩
      · intro opened isOpened
        cases isOpened
        exact Nat.not_lt.mp inside

theorem openLast_of_loadSegments (loads : store.loadSegments = .ok loaded) : loaded.OpenLast := by
  rcases bind_eq_ok_iff.mp loads with ⟨closedSegments, -, opens⟩
  rcases bind_eq_ok_iff.mp opens with ⟨opened, isOpened, returns⟩
  rcases openLast_of_loadOpenSegment isOpened with ⟨openLast, inside⟩
  cases returns
  split
  · intro segment isOpen
    have ends := openLast segment isOpen
    have lower := inside segment isOpen
    exact ⟨ends.1, by simp only; omega⟩
  · exact openLast

theorem openLast_of_init {order : Enumeration Unit Bytes} {maxLogSegmentFileSize : ℕ}
    (starts : init order maxLogSegmentFileSize createTime files = .ok store) : store.OpenLast := by
  rcases bind_eq_ok_iff.mp starts with ⟨found, -, loads⟩
  rcases bind_eq_ok_iff.mp loads with ⟨loaded, isLoaded, opens⟩
  rcases (openLast_of_loadSegments isLoaded).openNewSegmentIfNeeded createTime with
    ⟨after, leaves, openLast, -⟩
  split at opens
  · rename_i opened
    cases opens
    rw [StoreCall.leaves, opened] at leaves
    cases leaves
    exact openLast
  · cases opens

end LogSegmentStore

end RaftKeeper
