import Mathlib.Data.List.Nodup
import Mathlib.Data.Set.Insert

/-!
# Merging two streams that arrive apart

A client sends operations, some of which are writes. They arrive in a queue and move to a waiting
list. Each write is later confirmed, or reported as failed, through a second and a third queue. An
operation that is no write is taken at the head of the waiting list; a confirmed write is taken with
the head if that has the same key, and alone if the head is another write that is not marked as
failed. `due` and `dueFailures` are the numbers of confirmed writes and failures that were there
when the waiting list was last filled.
-/

universe u v

open List

/-- The operations of one client on their way: reads wait for the writes before them, and writes for
their confirmation. -/
@[ext]
structure Lane (α : Type u) (κ : Type v) where
  sent : List α
  confirmed : List α
  reported : List κ
  applied : List α
  /-- The keys of what was answered without being applied. -/
  answered : List κ
  waiting : List α
  queued : List α
  unapplied : List α
  due : ℕ
  failures : List κ
  dueFailures : ℕ
  marked : Set κ

theorem key_ne_of_mem_eraseP {α : Type u} {κ : Type v} [DecidableEq κ] {key : α → κ} {value : κ}
    {elements : List α} (nodup : (elements.map key).Nodup) {element : α}
    (remains : element ∈ elements.eraseP fun other => key other = value) : key element ≠ value := by
  induction elements with
  | nil => cases remains
  | cons head tail ih =>
    rcases nodup_cons.mp nodup with ⟨notTail, nodupTail⟩
    by_cases isHead : key head = value
    · rw [eraseP_cons_of_pos (by simpa using isHead)] at remains
      rintro rfl
      exact notTail (isHead ▸ mem_map_of_mem remains)
    · rw [eraseP_cons_of_neg (by simpa using isHead)] at remains
      rcases mem_cons.mp remains with rfl | inTail
      · exact isHead
      · exact ih nodupTail inTail

namespace Lane

variable {α : Type u} {κ : Type v} {isWrite : α → Bool} {key : α → κ}
  {lane after : Lane α κ}

/-- What is told to a lane from outside. -/
inductive Event (α : Type u) (κ : Type v)
  | send (operation : α)
  | confirm (operation : α)
  | report (failure : κ)
  | turn (alive : Bool)

variable {event : Event α κ}

/-- What a lane does on an event; each constructor is one branch of the loop that serves it. -/
inductive Step [DecidableEq κ] (isWrite : α → Bool) (key : α → κ) (lane : Lane α κ) :
    Event α κ → Lane α κ → Prop
  | send (operation : α) :
      Step isWrite key lane (.send operation) { lane with
        sent := lane.sent ++ [operation], queued := lane.queued ++ [operation] }
  | confirm (operation : α) :
      Step isWrite key lane (.confirm operation) { lane with
        confirmed := lane.confirmed ++ [operation], unapplied := lane.unapplied ++ [operation] }
  | report (failure : κ) :
      Step isWrite key lane (.report failure) { lane with
        reported := lane.reported ++ [failure], failures := lane.failures ++ [failure]
        marked := insert failure lane.marked }
  | stay {alive : Bool} : Step isWrite key lane (.turn alive) lane
  /-- The queue is moved to the waiting list; what is there by now becomes due. -/
  | fill {alive : Bool} {due dueFailures : ℕ} (isConfirmed : due ≤ lane.unapplied.length)
      (isReported : dueFailures ≤ lane.failures.length) :
      Step isWrite key lane (.turn alive) { lane with
        waiting := lane.waiting ++ lane.queued, queued := []
        due := due, dueFailures := dueFailures }
  | forget {alive : Bool} {due dueFailures : ℕ} (isLess : due ≤ lane.due)
      (fewerFailures : dueFailures ≤ lane.dueFailures) :
      Step isWrite key lane (.turn alive) { lane with due := due, dueFailures := dueFailures }
  | read {operation : α} {others : List α} (waits : lane.waiting = operation :: others)
      (noWrite : isWrite operation = false) :
      Step isWrite key lane (.turn true) { lane with
        applied := lane.applied ++ [operation], waiting := others }
  | refuse {operation : α} {others : List α} (waits : lane.waiting = operation :: others)
      (noWrite : isWrite operation = false) :
      Step isWrite key lane (.turn false) { lane with
        answered := lane.answered ++ [key operation], waiting := others }
  /-- The write that is due first has the key of the head of the waiting list. -/
  | write {alive : Bool} {operation head : α} {rest others : List α} {due : ℕ}
      (first : lane.unapplied = operation :: rest) (isDue : lane.due = due + 1)
      (waits : lane.waiting = head :: others) (same : key head = key operation) :
      Step isWrite key lane (.turn alive) { lane with
        applied := lane.applied ++ [operation], waiting := others
        unapplied := rest, due := due }
  /-- The write that is due first does not have it, and nothing holds it up. -/
  | pass {alive : Bool} {operation : α} {rest : List α} {due : ℕ}
      (first : lane.unapplied = operation :: rest) (isDue : lane.due = due + 1)
      (free : ∀ head ∈ lane.waiting.head?,
        key head ≠ key operation ∧ isWrite head = true ∧ key head ∉ lane.marked) :
      Step isWrite key lane (.turn alive) { lane with
        applied := lane.applied ++ [operation], unapplied := rest, due := due }
  /-- The failure that is due first is answered if it is waited for, or if it is of an operation
  that was never sent. -/
  | fail {alive : Bool} {failure : κ} {rest answers : List κ} {dueFailures : ℕ}
      (first : lane.failures = failure :: rest) (isDue : lane.dueFailures = dueFailures + 1)
      (answer : answers = ((lane.waiting.find? fun operation => key operation = failure).map
          key).toList ∨ failure ∉ lane.sent.map key ∧ ∀ other ∈ answers,
            other ∉ lane.sent.map key) :
      Step isWrite key lane (.turn alive) { lane with
        answered := lane.answered ++ answers
        waiting := lane.waiting.eraseP fun operation => key operation = failure
        failures := rest, dueFailures := dueFailures
        marked := lane.marked \ {failure} }

theorem Step.trans_eq [DecidableEq κ] {middle : Lane α κ}
    (moves : Step isWrite key lane event middle) (same : after = middle) :
    Step isWrite key lane event after := by
  rw [same]
  exact moves

theorem Step.of_eq [DecidableEq κ] {alive : Bool} (same : after = lane) :
    Step isWrite key lane (.turn alive) after := stay.trans_eq same

/-- Keys are not used twice, and a write is confirmed once and after it was sent. -/
def Proper (isWrite : α → Bool) (key : α → κ) (lane : Lane α κ) : Event α κ → Prop
  | .send operation => key operation ∉ lane.sent.map key ∧ key operation ∉ lane.reported
  | .confirm operation =>
    operation ∈ lane.sent ∧ isWrite operation = true ∧ operation ∉ lane.confirmed
  | .report _ | .turn _ => True

/-- Nothing appears that was not sent, and what is confirmed is applied or waits for it. -/
structure Accounted (isWrite : α → Bool) (key : α → κ) (lane : Lane α κ) : Prop where
  remains : (lane.waiting ++ lane.queued).Sublist lane.sent
  keys : (lane.sent.map key).Nodup
  confirmed_eq : lane.applied.filter isWrite ++ lane.unapplied = lane.confirmed
  confirmed_sent : ∀ operation ∈ lane.confirmed, operation ∈ lane.sent ∧ isWrite operation = true
  applied_sent : ∀ operation ∈ lane.applied, operation ∈ lane.sent
  once : lane.confirmed.Nodup
  due_le : lane.due ≤ lane.unapplied.length
  arrived : ∀ operation ∈ lane.unapplied.take lane.due, operation ∉ lane.queued
  failures_subset : lane.failures ⊆ lane.reported
  dueFailures_le : lane.dueFailures ≤ lane.failures.length
  failuresArrived : ∀ operation ∈ lane.queued, key operation ∉ lane.failures.take lane.dueFailures

namespace Accounted

variable (accounted : lane.Accounted isWrite key)

include accounted

theorem eq_of_key {first second : α} (isFirst : first ∈ lane.sent) (isSecond : second ∈ lane.sent)
    (same : key first = key second) :
    first = second := inj_on_of_nodup_map accounted.keys isFirst isSecond same

theorem nodup : (lane.waiting ++ lane.queued).Nodup :=
  accounted.keys.of_map.sublist accounted.remains

variable {operation : α}

theorem unapplied_confirmed (isUnapplied : operation ∈ lane.unapplied) :
    operation ∈ lane.confirmed := by
  rw [← accounted.confirmed_eq]
  exact mem_append_right _ isUnapplied

variable {others : List α}

theorem mem_sent_of_head (waits : lane.waiting = operation :: others) : operation ∈ lane.sent := by
  apply accounted.remains.subset
  rw [waits]
  exact mem_cons_self

variable {other : α}

theorem key_ne_of_rest (waits : lane.waiting = operation :: others)
    (isOther : other ∈ others ++ lane.queued) :
    key other ≠ key operation := by
  intro same
  have nodup := accounted.nodup
  have remains := accounted.remains
  rw [waits, cons_append] at nodup remains
  have isOperation : other = operation :=
    accounted.eq_of_key (remains.subset (mem_cons_of_mem _ isOther))
      (remains.subset mem_cons_self) same
  exact (nodup_cons.mp nodup).1 (isOperation ▸ isOther)

variable {rest : List α}

theorem unapplied_not_applied (first : lane.unapplied = operation :: rest)
    (isApplied : other ∈ lane.applied) :
    key other ≠ key operation := by
  intro same
  have isConfirmed := accounted.unapplied_confirmed (first ▸ mem_cons_self)
  rcases accounted.confirmed_sent operation isConfirmed with ⟨isSent, writes⟩
  have isOperation := accounted.eq_of_key (accounted.applied_sent other isApplied) isSent same
  have once := accounted.once
  rw [← accounted.confirmed_eq, first] at once
  exact (nodup_append.mp once).2.2 operation
    (mem_filter.mpr ⟨isOperation ▸ isApplied, writes⟩) operation mem_cons_self rfl

theorem head_eq {head : α} (first : lane.unapplied = operation :: rest)
    (waits : lane.waiting = head :: others) (same : key head = key operation) :
    head = operation := by
  have isConfirmed := accounted.unapplied_confirmed (first ▸ mem_cons_self)
  exact accounted.eq_of_key (accounted.mem_sent_of_head waits)
    (accounted.confirmed_sent operation isConfirmed).1 same

theorem key_ne_failure [DecidableEq κ] {failure : κ} {rest : List κ} {dueFailures : ℕ}
    (first : lane.failures = failure :: rest) (isDue : lane.dueFailures = dueFailures + 1)
    (stands : operation ∈ (lane.waiting.eraseP fun other => key other = failure) ++ lane.queued) :
    key operation ≠ failure := by
  rcases mem_append.mp stands with isWaiting | isQueued
  · have nodup : (lane.waiting.map key).Nodup :=
      accounted.keys.sublist (((sublist_append_left _ _).trans accounted.remains).map key)
    exact key_ne_of_mem_eraseP nodup isWaiting
  · intro same
    apply accounted.failuresArrived operation isQueued
    rw [first, isDue, take_succ_cons, same]
    exact mem_cons_self

theorem apply {due : ℕ} (first : lane.unapplied = operation :: rest) (isDue : lane.due = due + 1) :
    Accounted isWrite key { lane with
      applied := lane.applied ++ [operation], unapplied := rest, due := due } := by
  have isConfirmed := accounted.unapplied_confirmed (first ▸ mem_cons_self)
  rcases accounted.confirmed_sent operation isConfirmed with ⟨isSent, writes⟩
  have bound := accounted.due_le
  rw [first, isDue] at bound
  refine { accounted with
    confirmed_eq := ?_, applied_sent := ?_, due_le := Nat.le_of_succ_le_succ bound
    arrived := ?_ }
  · rw [← accounted.confirmed_eq, first, filter_append, filter_cons_of_pos writes]
    simp only [filter_nil, append_assoc, cons_append, nil_append]
  · exact forall_mem_append.mpr ⟨accounted.applied_sent, forall_mem_singleton.mpr isSent⟩
  · intro write stillDue
    apply accounted.arrived
    rw [first, isDue, take_succ_cons]
    exact mem_cons_of_mem _ stillDue

theorem step [DecidableEq κ] (moves : Step isWrite key lane event after)
    (proper : lane.Proper isWrite key event) :
    after.Accounted isWrite key := by
  have remains := accounted.remains
  cases moves with
  | send operation =>
    refine { accounted with
      remains := ?_, keys := ?_, confirmed_sent := ?_, applied_sent := ?_
      arrived := ?_, failuresArrived := ?_ }
    · rw [← append_assoc]
      exact accounted.remains.append (Sublist.refl _)
    · rw [map_append]
      refine Nodup.append accounted.keys (nodup_singleton _) ?_
      simpa using proper.1
    · intro write isConfirmed
      rcases accounted.confirmed_sent write isConfirmed with ⟨isSent, writes⟩
      exact ⟨mem_append_left _ isSent, writes⟩
    · intro other isApplied
      exact mem_append_left _ (accounted.applied_sent other isApplied)
    · intro write isDue isQueued
      rcases mem_append.mp isQueued with isOld | isNew
      · exact accounted.arrived write isDue isOld
      · cases mem_singleton.mp isNew
        have isConfirmed := accounted.unapplied_confirmed (mem_of_mem_take isDue)
        exact proper.1 (mem_map_of_mem (accounted.confirmed_sent _ isConfirmed).1)
    · exact forall_mem_append.mpr ⟨accounted.failuresArrived, forall_mem_singleton.mpr
        fun isDue => proper.2 (accounted.failures_subset (mem_of_mem_take isDue))⟩
  | confirm operation =>
    rcases proper with ⟨isSent, writes, fresh⟩
    refine { accounted with
      confirmed_eq := ?_, confirmed_sent := ?_, once := ?_, due_le := ?_, arrived := ?_ }
    · rw [← accounted.confirmed_eq]
      simp only [append_assoc]
    · exact forall_mem_append.mpr
        ⟨accounted.confirmed_sent, forall_mem_singleton.mpr ⟨isSent, writes⟩⟩
    · refine Nodup.append accounted.once (nodup_singleton _) ?_
      simpa using fresh
    · rw [length_append]
      exact Nat.le_add_right_of_le accounted.due_le
    · rw [take_append_of_le_length accounted.due_le]
      exact accounted.arrived
  | report failure =>
    refine { accounted with failures_subset := ?_, dueFailures_le := ?_, failuresArrived := ?_ }
    · exact append_subset.mpr ⟨subset_append_of_subset_left _ accounted.failures_subset,
        subset_append_right _ _⟩
    · rw [length_append]
      exact Nat.le_add_right_of_le accounted.dueFailures_le
    · rw [take_append_of_le_length accounted.dueFailures_le]
      exact accounted.failuresArrived
  | stay => exact accounted
  | fill isConfirmed isReported =>
    refine { accounted with
      remains := ?_, due_le := isConfirmed, arrived := ?_, dueFailures_le := isReported
      failuresArrived := ?_ }
    · rw [append_nil]
      exact accounted.remains
    · exact fun _ _ isQueued => not_mem_nil isQueued
    · exact fun _ isQueued => absurd isQueued not_mem_nil
  | forget isLess fewerFailures =>
    refine { accounted with
      due_le := isLess.trans accounted.due_le, arrived := ?_
      dueFailures_le := fewerFailures.trans accounted.dueFailures_le, failuresArrived := ?_ }
    · intro write isDue
      exact accounted.arrived write (take_subset_take_left _ isLess isDue)
    · intro other isQueued isDue
      exact accounted.failuresArrived other isQueued
        (take_subset_take_left _ fewerFailures isDue)
  | read waits noWrite =>
    rw [waits] at remains
    refine { accounted with remains := ?_, confirmed_eq := ?_, applied_sent := ?_ }
    · exact (sublist_cons_self _ _).trans remains
    · rw [← accounted.confirmed_eq, filter_append,
        filter_cons_of_neg (by simp [noWrite]), filter_nil, append_nil]
    · exact forall_mem_append.mpr
        ⟨accounted.applied_sent, forall_mem_singleton.mpr (accounted.mem_sent_of_head waits)⟩
  | refuse waits noWrite =>
    rw [waits] at remains
    exact { accounted with remains := (sublist_cons_self _ _).trans remains }
  | write first isDue waits same =>
    rw [waits] at remains
    exact { accounted.apply first isDue with
      remains := (sublist_cons_self _ _).trans remains }
  | pass first isDue free => exact accounted.apply first isDue
  | @fail _ failure rest _ dueFailures first isDue answer =>
    have bound := accounted.dueFailures_le
    rw [first, isDue] at bound
    refine { accounted with
      remains := ?_, failures_subset := ?_, dueFailures_le := ?_, failuresArrived := ?_ }
    · exact (eraseP_sublist.append (Sublist.refl _)).trans accounted.remains
    · exact fun _ isListed =>
        accounted.failures_subset (first ▸ mem_cons_of_mem _ isListed)
    · exact Nat.le_of_succ_le_succ bound
    · intro other isQueued stillDue
      apply accounted.failuresArrived other isQueued
      rw [first, isDue, take_succ_cons]
      exact mem_cons_of_mem _ stillDue

end Accounted

/-- Keys are distinct, writes are confirmed in the order in which they were sent, and nothing is
reported or refused. -/
def InOrder (isWrite : α → Bool) (key : α → κ) (lane : Lane α κ) : Event α κ → Prop
  | .send operation => key operation ∉ lane.sent.map key
  | .confirm operation => lane.confirmed ++ [operation] <+: lane.sent.filter isWrite
  | .report _ => False
  | .turn alive => alive = true

/-- A lane without failures serves its operations in the order in which they were sent. -/
structure Ordered (isWrite : α → Bool) (key : α → κ) (lane : Lane α κ) : Prop
    extends Accounted isWrite key lane where
  sent_eq : lane.applied ++ (lane.waiting ++ lane.queued) = lane.sent
  inOrder : lane.confirmed <+: lane.sent.filter isWrite
  noReports : lane.reported = []

namespace Ordered

variable (ordered : lane.Ordered isWrite key)

include ordered

theorem applied_prefix : lane.applied <+: lane.sent :=
  ⟨_, ordered.sent_eq⟩

theorem unapplied_prefix : lane.unapplied <+: (lane.waiting ++ lane.queued).filter isWrite := by
  have inOrder := ordered.inOrder
  rw [← ordered.confirmed_eq, ← ordered.sent_eq, filter_append] at inOrder
  exact (prefix_append_right_inj _).mp inOrder

theorem head_of_due {write : α} {rest : List α} {due : ℕ} (first : lane.unapplied = write :: rest)
    (isDue : lane.due = due + 1) :
    ∃ head others, lane.waiting = head :: others ∧ (isWrite head = true → head = write) := by
  have notQueued : write ∉ lane.queued := by
    apply ordered.arrived
    rw [first, isDue, take_succ_cons]
    exact mem_cons_self
  have leads := ordered.unapplied_prefix
  rw [first] at leads
  have stands := (mem_filter.mp (leads.subset mem_cons_self)).1
  cases isWaiting : lane.waiting with
  | nil =>
    rw [isWaiting, nil_append] at stands
    exact absurd stands notQueued
  | cons head others =>
    refine ⟨head, others, rfl, fun headWrites => ?_⟩
    rw [isWaiting, cons_append, filter_cons_of_pos headWrites] at leads
    exact (cons_prefix_cons.mp leads).1.symm

theorem proper (allowed : lane.InOrder isWrite key event) : lane.Proper isWrite key event := by
  cases event with
  | send operation => exact ⟨allowed, by simp [ordered.noReports]⟩
  | confirm operation =>
    have isNext := mem_filter.mp
      (allowed.subset (mem_append_right _ mem_cons_self))
    have once := (ordered.keys.of_map.filter isWrite).sublist allowed.sublist
    refine ⟨isNext.1, isNext.2, fun again => ?_⟩
    exact (nodup_append.mp once).2.2 operation again operation mem_cons_self rfl
  | report failure => exact allowed.elim
  | turn alive => trivial

theorem sent_eq_of_apply {operation : α} {others : List α}
    (waits : lane.waiting = operation :: others) :
    lane.applied ++ [operation] ++ (others ++ lane.queued) = lane.sent := by
  rw [← ordered.sent_eq, waits]
  simp only [append_assoc, cons_append, nil_append]

theorem step [DecidableEq κ] (moves : Step isWrite key lane event after)
    (allowed : lane.InOrder isWrite key event) :
    after.Ordered isWrite key := by
  have accounted := ordered.toAccounted.step moves (ordered.proper allowed)
  cases moves with
  | send operation =>
    refine ⟨accounted, ?_, ?_, ordered.noReports⟩
    · rw [← ordered.sent_eq]
      simp only [append_assoc]
    · rw [filter_append]
      exact ordered.inOrder.trans (prefix_append _ _)
  | confirm operation => exact ⟨accounted, ordered.sent_eq, allowed, ordered.noReports⟩
  | report failure => exact allowed.elim
  | stay => exact ordered
  | fill =>
    refine ⟨accounted, ?_, ordered.inOrder, ordered.noReports⟩
    rw [append_nil]
    exact ordered.sent_eq
  | forget => exact ⟨accounted, ordered.sent_eq, ordered.inOrder, ordered.noReports⟩
  | read waits noWrite =>
    exact ⟨accounted, ordered.sent_eq_of_apply waits, ordered.inOrder, ordered.noReports⟩
  | refuse => cases allowed
  | write first isDue waits same =>
    cases ordered.head_eq first waits same
    exact ⟨accounted, ordered.sent_eq_of_apply waits, ordered.inOrder, ordered.noReports⟩
  | pass first isDue free =>
    -- The write would be at the head itself.
    rcases ordered.head_of_due first isDue with ⟨head, others, waits, meets⟩
    rcases free head (by rw [waits]; rfl) with ⟨different, writes, _⟩
    exact absurd (congrArg key (meets writes)) different
  | fail first =>
    have isReported := ordered.failures_subset (first ▸ mem_cons_self)
    rw [ordered.noReports] at isReported
    cases isReported

theorem isWrite_eq_false (all : lane.confirmed = lane.sent.filter isWrite)
    (none : lane.unapplied = []) {operation : α}
    (isLeft : operation ∈ lane.waiting ++ lane.queued) : isWrite operation = false := by
  rw [← ordered.confirmed_eq, none, append_nil, ← ordered.sent_eq, filter_append] at all
  have noWrites : (lane.waiting ++ lane.queued).filter isWrite = [] := by
    simpa using all
  by_contra writes
  have := mem_filter.mpr ⟨isLeft, by simpa using writes⟩
  rw [noWrites] at this
  cases this

end Ordered

end Lane
