import Mathlib.Data.List.Count
import RaftKeeper.Lib.Lane

/-!
# Writes that fail or are confirmed out of order

What remains of a lane when writes may be reported as failed, and when a confirmed write may
overtake another: `Cleared` says that no write is waited for once it is applied, and `Single`
that nothing is answered twice; each has its own condition on what is confirmed and reported.
-/

universe u v

open List

theorem mem_left_of_pair_sublist {α : Type u} {first second : α} {left right : List α}
    (nodup : (left ++ second :: right).Nodup)
    (inOrder : [first, second].Sublist (left ++ second :: right)) :
    first ∈ left := by
  rcases nodup_append.mp nodup with ⟨_, nodupRight, disjoint⟩
  have notRight := (nodup_cons.mp nodupRight).1
  rcases sublist_append_iff.mp inOrder with ⟨before, behind, isPair, inLeft, inRight⟩
  cases before with
  | nil =>
    rw [nil_append] at isPair
    subst isPair
    -- The second element would come behind itself.
    have isBehind : second ∈ right := by
      cases inRight with
      | cons _ smaller | cons_cons _ smaller => exact smaller.subset (by simp)
    exact absurd isBehind notRight
  | cons head tail =>
    have isFirst : first = head := by simpa using congrArg head? isPair
    exact isFirst ▸ inLeft.subset mem_cons_self

theorem pair_sublist_of_append {α : Type u} {first second last : α} {elements : List α}
    (different : second ≠ last) (inOrder : [first, second].Sublist (elements ++ [last])) :
    [first, second].Sublist elements := by
  rcases sublist_append_iff.mp inOrder with ⟨before, behind, isPair, isBefore, isBehind⟩
  rcases sublist_singleton.mp isBehind with rfl | rfl
  · rw [isPair, append_nil]
    exact isBefore
  · have isLast : second = last := by simpa using congrArg getLast? isPair
    exact absurd isLast different

namespace Lane

variable {α : Type u} {κ : Type v} {isWrite : α → Bool} {key : α → κ}
  {lane after : Lane α κ} {event : Event α κ}

/-- A write is confirmed when those that were sent before it are confirmed or reported. -/
def InTurn (isWrite : α → Bool) (key : α → κ) (lane : Lane α κ) : Event α κ → Prop
  | .confirm operation => ∀ earlier, isWrite earlier = true →
      [earlier, operation].Sublist lane.sent → earlier ∈ lane.confirmed ∨
        key earlier ∈ lane.reported
  | .send _ | .report _ | .turn _ => True

/-- A write that is applied has left the lane, whatever failures are reported. -/
structure Cleared (isWrite : α → Bool) (key : α → κ) (lane : Lane α κ) : Prop where
  gone : ∀ operation ∈ lane.applied, isWrite operation = true →
    operation ∉ lane.waiting ++ lane.queued
  marks : ∀ operation ∈ lane.waiting ++ lane.queued, key operation ∈ lane.reported →
    key operation ∈ lane.marked
  inTurn : ∀ earlier operation, isWrite earlier = true → operation ∈ lane.confirmed →
    [earlier, operation].Sublist lane.sent →
      [earlier, operation].Sublist lane.confirmed ∨ key earlier ∈ lane.reported

namespace Cleared

variable {operation : α} {rest : List α} {due : ℕ}

theorem not_standing_of_free (cleared : lane.Cleared isWrite key)
    (accounted : lane.Accounted isWrite key) (first : lane.unapplied = operation :: rest)
    (isDue : lane.due = due + 1) (free : ∀ head ∈ lane.waiting.head?,
      key head ≠ key operation ∧ isWrite head = true ∧ key head ∉ lane.marked) :
    operation ∉ lane.waiting ++ lane.queued := by
  have notQueued : operation ∉ lane.queued := by
    apply accounted.arrived
    rw [first, isDue, take_succ_cons]
    exact mem_cons_self
  intro stands
  have isWaiting := (mem_append.mp stands).resolve_right notQueued
  cases waits : lane.waiting with
  | nil =>
    rw [waits] at isWaiting
    cases isWaiting
  | cons head others =>
    rcases free head (by rw [waits]; rfl) with ⟨different, writes, notMarked⟩
    have headStands : head ∈ lane.waiting ++ lane.queued := by
      rw [waits]
      exact mem_cons_self
    have isOther : operation ∈ others := by
      rw [waits] at isWaiting
      exact (mem_cons.mp isWaiting).resolve_left fun same => different (congrArg key same.symm)
    have before : [head, operation].Sublist lane.sent := by
      have pair : [head, operation].Sublist lane.waiting := by
        rw [waits]
        exact (singleton_sublist.mpr isOther).cons_cons head
      exact (pair.trans (sublist_append_left _ _)).trans accounted.remains
    have isConfirmed := accounted.unapplied_confirmed (first ▸ mem_cons_self)
    rcases cleared.inTurn head operation writes isConfirmed before with inOrder | isReported
    · -- The head was confirmed before and so it is applied already.
      have isApplied : head ∈ lane.applied.filter isWrite := by
        rw [← accounted.confirmed_eq, first] at inOrder
        have once := accounted.once
        rw [← accounted.confirmed_eq, first] at once
        exact mem_left_of_pair_sublist once inOrder
      exact cleared.gone head (mem_filter.mp isApplied).1 writes headStands
    · exact notMarked (cleared.marks head headStands isReported)

theorem apply (cleared : lane.Cleared isWrite key) {waiting : List α}
    (stillWaiting : waiting.Sublist lane.waiting)
    (notStanding : operation ∉ waiting ++ lane.queued) :
    Cleared isWrite key { lane with
      applied := lane.applied ++ [operation], waiting := waiting, unapplied := rest,
      due := due } where
  gone := forall_mem_append.mpr
    ⟨fun other isOld writes stands =>
      cleared.gone other isOld writes ((stillWaiting.append_right _).subset stands),
      forall_mem_singleton.mpr fun _ => notStanding⟩
  marks := by
    intro other stands
    exact cleared.marks other ((stillWaiting.append_right _).subset stands)
  inTurn := cleared.inTurn

theorem shrink (cleared : lane.Cleared isWrite key) {waiting : List α} {answered failures : List κ}
    {dueFailures : ℕ} {marked : Set κ} (stillWaiting : waiting.Sublist lane.waiting)
    (marks : ∀ other ∈ waiting ++ lane.queued, key other ∈ lane.marked → key other ∈ marked) :
    Cleared isWrite key { lane with answered, waiting, failures, dueFailures, marked } where
  gone other isApplied writes stands :=
    cleared.gone other isApplied writes ((stillWaiting.append_right _).subset stands)
  marks other stands isReported := marks other stands
    (cleared.marks other ((stillWaiting.append_right _).subset stands) isReported)
  inTurn := cleared.inTurn

theorem step [DecidableEq κ] (cleared : lane.Cleared isWrite key)
    (accounted : lane.Accounted isWrite key) (moves : Step isWrite key lane event after)
    (proper : lane.Proper isWrite key event) (inTurn : lane.InTurn isWrite key event) :
    after.Cleared isWrite key := by
  cases moves with
  | send operation =>
    refine ⟨?_, ?_, ?_⟩
    · intro other isApplied writes stands
      rw [← append_assoc] at stands
      rcases mem_append.mp stands with isOld | isNew
      · exact cleared.gone other isApplied writes isOld
      · cases mem_singleton.mp isNew
        exact proper.1 (mem_map_of_mem (accounted.applied_sent _ isApplied))
    · rw [← append_assoc]
      exact forall_mem_append.mpr ⟨cleared.marks,
        forall_mem_singleton.mpr fun isReported => absurd isReported proper.2⟩
    · intro earlier write writes isConfirmed inOrder
      have isSent := (accounted.confirmed_sent write isConfirmed).1
      have different : write ≠ operation := by
        rintro rfl
        exact proper.1 (mem_map_of_mem isSent)
      exact cleared.inTurn earlier write writes isConfirmed
        (pair_sublist_of_append different inOrder)
  | confirm operation =>
    refine ⟨cleared.gone, cleared.marks, ?_⟩
    intro earlier write writes isConfirmed inOrder
    rcases mem_append.mp isConfirmed with isOld | isNew
    · rcases cleared.inTurn earlier write writes isOld inOrder with confirmedBefore | isReported
      · exact .inl (confirmedBefore.trans (sublist_append_left _ _))
      · exact .inr isReported
    · cases mem_singleton.mp isNew
      rcases inTurn earlier writes inOrder with confirmedBefore | isReported
      · exact .inl ((singleton_sublist.mpr confirmedBefore).append (Sublist.refl _))
      · exact .inr isReported
  | report failure =>
    refine ⟨cleared.gone, ?_, ?_⟩
    · intro operation stands isReported
      rcases mem_append.mp isReported with isOld | isNew
      · exact Set.mem_insert_of_mem _ (cleared.marks operation stands isOld)
      · exact Set.mem_insert_iff.mpr (.inl (mem_singleton.mp isNew))
    · intro earlier write writes isConfirmed inOrder
      exact (cleared.inTurn earlier write writes isConfirmed inOrder).imp_right
        (mem_append_left _)
  | stay => exact cleared
  | fill =>
    refine ⟨?_, ?_, cleared.inTurn⟩
    · intro other isApplied writes stands
      rw [append_nil] at stands
      exact cleared.gone other isApplied writes stands
    · intro other stands
      rw [append_nil] at stands
      exact cleared.marks other stands
  | forget => exact ⟨cleared.gone, cleared.marks, cleared.inTurn⟩
  | @read operation others waits noWrite =>
    refine cleared.apply ?_ ?_
    · exact waits ▸ sublist_cons_self _ _
    · intro stands
      exact accounted.key_ne_of_rest waits stands rfl
  | refuse waits noWrite => exact cleared.shrink (waits ▸ sublist_cons_self _ _) fun _ _ => id
  | @write _ operation head _ others _ first isDue waits same =>
    cases accounted.head_eq first waits same
    refine cleared.apply ?_ ?_
    · exact waits ▸ sublist_cons_self _ _
    · intro stands
      exact accounted.key_ne_of_rest waits stands rfl
  | pass first isDue free =>
    exact cleared.apply (Sublist.refl _)
      (cleared.not_standing_of_free accounted first isDue free)
  | fail first isDue answer =>
    exact cleared.shrink eraseP_sublist fun _ stands isMarked =>
      ⟨isMarked, accounted.key_ne_failure first isDue stands⟩

end Cleared

/-- A write is not both confirmed and reported, and nothing is answered before it is sent. -/
def Exclusive (key : α → κ) (lane : Lane α κ) : Event α κ → Prop
  | .send operation => key operation ∉ lane.answered
  | .confirm operation => key operation ∉ lane.reported
  | .report failure => ∀ operation ∈ lane.confirmed, key operation ≠ failure
  | .turn _ => True

/-- The keys of what was answered, with those that were answered by being applied. -/
def answers (key : α → κ) (lane : Lane α κ) : List κ := lane.applied.map key ++ lane.answered

/-- No operation is both confirmed and reported, and none is answered twice. -/
structure Single [DecidableEq κ] (isWrite : α → Bool) (key : α → κ) (lane : Lane α κ) : Prop where
  exclusive : ∀ operation ∈ lane.confirmed, key operation ∉ lane.reported
  refused : ∀ operation ∈ lane.sent, isWrite operation = true →
    key operation ∈ lane.answered → key operation ∈ lane.reported
  standing : ∀ operation ∈ lane.waiting ++ lane.queued,
    key operation ∈ lane.answers key → operation ∈ lane.confirmed
  single : ∀ operation ∈ lane.sent, (lane.answers key).count (key operation) ≤ 1

namespace Single

variable [DecidableEq κ] (single : lane.Single isWrite key)

include single

variable {operation : α} {rest : List α}

theorem unapplied_not_answered (accounted : lane.Accounted isWrite key)
    (first : lane.unapplied = operation :: rest) :
    key operation ∉ lane.answers key := by
  intro isAnswered
  have isConfirmed := accounted.unapplied_confirmed (first ▸ mem_cons_self)
  rcases accounted.confirmed_sent operation isConfirmed with ⟨isSent, writes⟩
  rcases mem_append.mp isAnswered with isApplied | isRefused
  · rcases mem_map.mp isApplied with ⟨other, otherApplied, same⟩
    exact accounted.unapplied_not_applied first otherApplied same
  · exact single.exclusive operation isConfirmed
      (single.refused operation isSent writes isRefused)

theorem head_not_answered (accounted : lane.Accounted isWrite key) {others : List α}
    (waits : lane.waiting = operation :: others) (noWrite : isWrite operation = false) :
    key operation ∉ lane.answers key := by
  intro isAnswered
  have isConfirmed := single.standing operation (by rw [waits]; exact mem_cons_self) isAnswered
  have writes := (accounted.confirmed_sent operation isConfirmed).2
  rw [noWrite] at writes
  cases writes

theorem failed_not_answered (accounted : lane.Accounted isWrite key) {failure : κ} {rest : List κ}
    (first : lane.failures = failure :: rest) (waits : operation ∈ lane.waiting)
    (same : key operation = failure) : key operation ∉ lane.answers key := by
  intro isAnswered
  have isConfirmed := single.standing operation (mem_append_left _ waits) isAnswered
  apply single.exclusive operation isConfirmed
  apply accounted.failures_subset
  rw [first, same]
  exact mem_cons_self

variable {applied waiting unapplied : List α} {answered failures values : List κ}
  {due dueFailures : ℕ} {marked : Set κ}

/-- The answers grow by `values`, which are new. -/
theorem grow (isMore : (applied.map key ++ answered).Perm (lane.answers key ++ values))
    (stillWaiting : waiting.Sublist lane.waiting)
    (new : ∀ operation ∈ lane.sent, key operation ∈ values →
      key operation ∉ lane.answers key ∧ values.count (key operation) = 1)
    (refused : ∀ operation ∈ lane.sent, isWrite operation = true → key operation ∈ answered →
      key operation ∈ lane.answered ∨ key operation ∈ lane.reported)
    (standing : ∀ other ∈ waiting ++ lane.queued, key other ∈ values → other ∈ lane.confirmed) :
    Single isWrite key { lane with
      applied, answered, waiting, unapplied, due, failures, dueFailures, marked } where
  exclusive := single.exclusive
  refused operation isSent writes isAnswered :=
    (refused operation isSent writes isAnswered).elim (single.refused operation isSent writes) id
  standing := by
    intro other stands isAnswered
    rcases mem_append.mp (isMore.subset isAnswered) with isOld | isNew
    · exact single.standing other ((stillWaiting.append_right _).subset stands) isOld
    · exact standing other stands isNew
  single := by
    intro other isSent
    rw [answers, isMore.count_eq, count_append]
    by_cases isNew : key other ∈ values
    · rcases new other isSent isNew with ⟨notOld, once⟩
      rw [count_eq_zero_of_not_mem notOld, once]
    · rw [count_eq_zero_of_not_mem isNew]
      exact single.single other isSent

theorem apply (stillWaiting : waiting.Sublist lane.waiting) (new : key operation ∉ lane.answers key)
    (standing : ∀ other ∈ waiting ++ lane.queued, key other = key operation →
      other ∈ lane.confirmed) :
    Single isWrite key { lane with
      applied := lane.applied ++ [operation], waiting := waiting, unapplied := rest,
      due := due } := by
  refine @grow _ _ _ _ _ _ single _ _ _ _ _ [key operation] _ _ _ ?_ stillWaiting ?_ ?_ ?_
  · rw [answers, map_append, append_assoc, append_assoc]
    exact perm_append_comm.append_left _
  · intro other _ isNew
    rw [mem_singleton.mp isNew]
    exact ⟨new, count_singleton_self⟩
  · exact fun _ _ _ => .inl
  · exact fun other stands isNew => standing other stands (mem_singleton.mp isNew)

theorem fail (accounted : lane.Accounted isWrite key) {failure : κ} {rest answers : List κ}
    (first : lane.failures = failure :: rest) (isDue : lane.dueFailures = dueFailures + 1)
    (answer : answers = ((lane.waiting.find? fun operation => key operation = failure).map
        key).toList ∨ failure ∉ lane.sent.map key ∧ ∀ other ∈ answers, other ∉ lane.sent.map key) :
    Single isWrite key { lane with
      answered := lane.answered ++ answers
      waiting := lane.waiting.eraseP fun operation => key operation = failure
      failures := rest, dueFailures := dueFailures
      marked := lane.marked \ {failure} } := by
  have isFailure : ∀ operation ∈ lane.sent, key operation ∈ answers →
      key operation = failure ∧ operation ∈ lane.waiting ∧ answers = [failure] := by
    intro operation isSent isAnswer
    rcases answer with rfl | ⟨_, unsent⟩
    · cases found : lane.waiting.find? fun operation => key operation = failure with
      | none => simp [found] at isAnswer
      | some waits =>
        have same : key waits = failure := by simpa using find?_some found
        have isWaiting := mem_of_find?_eq_some found
        simp only [found, Option.map_some, Option.toList_some, mem_singleton, same] at isAnswer ⊢
        have isSame := accounted.eq_of_key isSent
          (accounted.remains.subset (mem_append_left _ isWaiting)) (isAnswer.trans same.symm)
        exact ⟨isAnswer, isSame ▸ isWaiting, trivial⟩
    · exact absurd (mem_map_of_mem isSent) (unsent _ isAnswer)
  refine single.grow (.of_eq (append_assoc _ _ _).symm) eraseP_sublist ?_ ?_ ?_
  · intro operation isSent isAnswer
    rcases isFailure operation isSent isAnswer with ⟨same, waits, isSingle⟩
    refine ⟨single.failed_not_answered accounted first waits same, ?_⟩
    rw [isSingle, same, count_singleton_self]
  · intro operation isSent _ isAnswered
    refine (mem_append.mp isAnswered).imp_right fun isAnswer => ?_
    apply accounted.failures_subset
    rw [first, (isFailure operation isSent isAnswer).1]
    exact mem_cons_self
  · intro other stands isAnswer
    have isSent := accounted.remains.subset ((eraseP_sublist.append_right _).subset stands)
    exact absurd (isFailure other isSent isAnswer).1 (accounted.key_ne_failure first isDue stands)

theorem step (accounted : lane.Accounted isWrite key) (moves : Step isWrite key lane event after)
    (proper : lane.Proper isWrite key event) (exclusive : lane.Exclusive key event) :
    after.Single isWrite key := by
  cases moves with
  | send operation =>
    have new : key operation ∉ lane.answers key := by
      intro isAnswered
      rcases mem_append.mp isAnswered with isApplied | isRefused
      · rcases mem_map.mp isApplied with ⟨other, otherApplied, same⟩
        exact proper.1 (same ▸ mem_map_of_mem (accounted.applied_sent other otherApplied))
      · exact exclusive isRefused
    refine ⟨single.exclusive, ?_, ?_, ?_⟩
    · exact forall_mem_append.mpr ⟨single.refused,
        forall_mem_singleton.mpr fun _ isRefused => absurd isRefused exclusive⟩
    · rw [← append_assoc]
      exact forall_mem_append.mpr ⟨single.standing,
        forall_mem_singleton.mpr fun isAnswered => absurd isAnswered new⟩
    · exact forall_mem_append.mpr ⟨single.single,
        forall_mem_singleton.mpr ((count_eq_zero_of_not_mem new).trans_le (Nat.zero_le 1))⟩
  | confirm operation =>
    refine ⟨?_, single.refused, ?_, single.single⟩
    · exact forall_mem_append.mpr ⟨single.exclusive, forall_mem_singleton.mpr exclusive⟩
    · intro other stands isAnswered
      exact mem_append_left _ (single.standing other stands isAnswered)
  | report failure =>
    refine ⟨?_, ?_, single.standing, single.single⟩
    · intro other isConfirmed isReported
      rcases mem_append.mp isReported with isOld | isNew
      · exact single.exclusive other isConfirmed isOld
      · exact exclusive other isConfirmed (mem_singleton.mp isNew)
    · intro other isSent writes isRefused
      exact mem_append_left _ (single.refused other isSent writes isRefused)
  | stay => exact single
  | fill =>
    refine ⟨single.exclusive, single.refused, ?_, single.single⟩
    intro other stands
    rw [append_nil] at stands
    exact single.standing other stands
  | forget => exact ⟨single.exclusive, single.refused, single.standing, single.single⟩
  | @read operation others waits noWrite =>
    refine single.apply ?_ (single.head_not_answered accounted waits noWrite) ?_
    · exact waits ▸ sublist_cons_self _ _
    · intro other stands same
      exact absurd same (accounted.key_ne_of_rest waits stands)
  | @refuse operation others waits noWrite =>
    refine single.grow (.of_eq (append_assoc _ _ _).symm) (waits ▸ sublist_cons_self _ _) ?_ ?_ ?_
    · intro other _ isNew
      rw [mem_singleton.mp isNew]
      exact ⟨single.head_not_answered accounted waits noWrite, count_singleton_self⟩
    · intro other isSent writes isAnswered
      refine .inl ((mem_append.mp isAnswered).resolve_right fun isNew => ?_)
      have isHead := accounted.eq_of_key isSent (accounted.mem_sent_of_head waits)
        (mem_singleton.mp isNew)
      rw [isHead, noWrite] at writes
      cases writes
    · intro other stands isNew
      exact absurd (mem_singleton.mp isNew) (accounted.key_ne_of_rest waits stands)
  | @write _ operation head _ others _ first isDue waits same =>
    cases accounted.head_eq first waits same
    refine single.apply ?_ (single.unapplied_not_answered accounted first) ?_
    · exact waits ▸ sublist_cons_self _ _
    · intro other stands same
      exact absurd same (accounted.key_ne_of_rest waits stands)
  | @pass _ operation _ _ first isDue free =>
    have isConfirmed := accounted.unapplied_confirmed (first ▸ mem_cons_self)
    refine single.apply (Sublist.refl _) (single.unapplied_not_answered accounted first) ?_
    intro other stands same
    have isSent := (accounted.confirmed_sent operation isConfirmed).1
    exact accounted.eq_of_key (accounted.remains.subset stands) isSent same ▸ isConfirmed
  | fail first isDue answer => exact single.fail accounted first isDue answer

end Single

end Lane
