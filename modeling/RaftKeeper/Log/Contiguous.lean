import RaftKeeper.Log.SegmentFile

/-!
# Segments in a row

The segments of a log follow one another without gaps. An index of the log is in exactly one of
them, which splits the list of segments; the loops that select segments are described by that split.
-/

namespace RaftKeeper

open List

open NuRaft (LogEntry)

/-- The segments hold the entries from an index on, one after the other. -/
inductive Contiguous (files : Directory) : ℕ → List NuRaftLogSegment → List LogEntry → Prop
  | nil (first : ℕ) : Contiguous files first [] []
  | cons {first : ℕ} {segment : NuRaftLogSegment} {segments : List NuRaftLogSegment}
      {part entries : List LogEntry} (starts : segment.firstIndex = first)
      (holds : segment.Holds files part)
      (rest : Contiguous files (first + part.length) segments entries) :
      Contiguous files first (segment :: segments) (part ++ entries)

namespace Contiguous

variable {files other : Directory} {first : ℕ} {segments more : List NuRaftLogSegment}
  {segment : NuRaftLogSegment} {entries : List LogEntry}

theorem singleton (starts : segment.firstIndex = first) (holds : segment.Holds files entries) :
    Contiguous files first [segment] entries := by
  have chain := cons starts holds (nil _)
  rwa [append_nil] at chain

theorem append {others : List LogEntry} (chain : Contiguous files first segments entries)
    (rest : Contiguous files (first + entries.length) more others) :
    Contiguous files first (segments ++ more) (entries ++ others) := by
  induction chain with
  | nil first => simpa using rest
  | cons starts holds _ ih =>
    rw [cons_append, append_assoc]
    apply cons starts holds
    apply ih
    simpa [Nat.add_assoc] using rest

theorem of_append (chain : Contiguous files first (segments ++ more) entries) :
    ∃ front back, entries = front ++ back ∧ Contiguous files first segments front ∧
      Contiguous files (first + front.length) more back := by
  induction segments generalizing first entries with
  | nil => exact ⟨[], entries, rfl, nil first, by simpa using chain⟩
  | cons head tail ih =>
    cases chain with
    | cons starts holds rest =>
      rcases ih rest with ⟨front, back, rfl, chainFront, chainBack⟩
      refine ⟨_ ++ front, back, by rw [append_assoc], cons starts holds chainFront, ?_⟩
      simpa [Nat.add_assoc] using chainBack

theorem of_singleton (chain : Contiguous files first [segment] entries) :
    segment.firstIndex = first ∧ segment.Holds files entries := by
  cases chain with
  | cons starts holds rest =>
    cases rest
    rw [append_nil]
    exact ⟨starts, holds⟩

theorem starts (chain : Contiguous files first (segment :: segments) entries) :
    segment.firstIndex = first := by
  cases chain
  assumption

theorem eq_nil (chain : Contiguous files first [] entries) : entries = [] := by
  cases chain
  rfl

variable (chain : Contiguous files first segments entries)

include chain

theorem congr (same : ∀ segment ∈ segments,
      other.lookup segment.fileName = files.lookup segment.fileName) :
    Contiguous other first segments entries := by
  induction chain with
  | nil first => exact nil first
  | cons starts holds _ ih =>
    apply cons starts
    · exact holds.congr (same _ mem_cons_self)
    · apply ih
      intro segment isMember
      exact same segment (mem_cons_of_mem _ isMember)

theorem exists_holds (isMember : segment ∈ segments) : ∃ part, segment.Holds files part := by
  induction chain with
  | nil first => simp at isMember
  | cons starts holds _ ih =>
    rcases mem_cons.mp isMember with rfl | later
    · exact ⟨_, holds⟩
    · exact ih later

theorem bounds (isMember : segment ∈ segments) :
    first ≤ segment.firstIndex ∧ segment.firstIndex ≤ segment.lastIndex + 1 ∧
      segment.lastIndex + 1 ≤ first + entries.length := by
  induction chain with
  | nil first => simp at isMember
  | cons starts holds _ ih =>
    have range := holds.range
    rw [length_append]
    rcases mem_cons.mp isMember with rfl | later
    · omega
    · have laterBounds := ih later
      omega

theorem last : (segments.getLast?.map (·.lastIndex + 1)).getD first = first + entries.length := by
  induction chain with
  | nil first => rfl
  | @cons first segment segments part entries starts holds rest ih =>
    have range := holds.range
    rw [getLast?_cons, length_append, ← Nat.add_assoc, ← ih]
    cases isLast : segments.getLast? with
    | none =>
      simp only [Option.getD_none, Option.map_some, Option.getD_some, Option.map_none]
      omega
    | some other => rfl

theorem pairwise : segments.Pairwise fun left right => left.lastIndex < right.firstIndex := by
  induction chain with
  | nil first => exact .nil
  | cons starts holds rest ih =>
    apply Pairwise.cons _ ih
    intro segment isMember
    have range := holds.range
    have laterBounds := rest.bounds isMember
    omega

theorem split_at {index : ℕ} (lower : first ≤ index) (upper : index < first + entries.length) :
    ∃ before segment after front part back,
      segments = before ++ segment :: after ∧ entries = front ++ (part ++ back) ∧
      Contiguous files first before front ∧ segment.Holds files part ∧
      segment.firstIndex = first + front.length ∧
      Contiguous files (segment.firstIndex + part.length) after back ∧
      segment.firstIndex ≤ index ∧ index ≤ segment.lastIndex := by
  induction chain with
  | nil first => simp at upper; omega
  | @cons first segment segments part entries starts holds rest ih =>
    have range := holds.range
    rw [length_append] at upper
    by_cases inside : index < first + part.length
    · exact ⟨[], segment, segments, [], part, entries, rfl, rfl, nil _, holds, starts,
        starts ▸ rest, by omega, by omega⟩
    · rcases ih (by omega) (by omega) with ⟨before, found, after, front, foundPart, back, rfl, rfl,
        chainBefore, holdsFound, startsFound, chainAfter, inRange⟩
      refine ⟨segment :: before, found, after, part ++ front, foundPart, back, rfl,
        by rw [append_assoc], cons starts holds chainBefore, holdsFound, ?_, chainAfter,
        inRange⟩
      rw [startsFound, length_append, Nat.add_assoc]

end Contiguous

end RaftKeeper
