import Mathlib.Algebra.Order.BigOperators.Group.List
import Mathlib.Algebra.Order.Ring.Nat
import Mathlib.Data.Prod.Lex
import RaftKeeper.Lib.Inevitable
import RaftKeeper.Processor.SessionOrder

/-!
# Everything that was sent is applied

Once all writes of a session are committed the processor applies what the session has sent, in
finitely many steps. A turn of the loop that begins with a committed request applies at least one:
by the time the loop gets to it, every read that could stop it has been answered. A turn that begins
without one answers reads only.
-/

namespace RaftKeeper

open List

namespace RequestProcessor

variable {parallel : ℕ} {surroundings : Surroundings} {processor after : RequestProcessor}
  {handed : Handed}

def outerRank (parallel : ℕ) (processor : RequestProcessor) : ℕ :=
  match processor.stage with
  | .waiting | .failing _ => 0
  | .committing .. | .popping .. => 1
  | .sampling _ => 2 * parallel + 3
  | .moving runner _ _ => 2 * (parallel - runner) + 2
  | .reading runner _ _ _ => 2 * (parallel - runner) + 1

def innerRank (processor : RequestProcessor) : ℕ :=
  match processor.stage with
  | .waiting | .sampling _ | .moving .. => 0
  | .failing left => left
  | .reading _ sessions _ _ =>
    (sessions.map fun session => (processor.pending session).length + 1).sum
  | .committing left _ => 2 * left + 1
  | .popping _ _ left _ => 2 * left + 2

def rank (parallel : ℕ) (processor : RequestProcessor) : ℕ ×ₗ ℕ :=
  toLex (processor.outerRank parallel, processor.innerRank)

theorem rank_lt_of_outer (smaller : after.outerRank parallel < processor.outerRank parallel) :
    after.rank parallel < processor.rank parallel := Prod.Lex.toLex_lt_toLex.mpr (.inl smaller)

theorem rank_lt_of_inner (same : after.outerRank parallel = processor.outerRank parallel)
    (smaller : after.innerRank < processor.innerRank) :
    after.rank parallel < processor.rank parallel :=
  Prod.Lex.toLex_lt_toLex.mpr (.inr ⟨same, smaller⟩)

variable {session : Int64}

theorem innerRank_read {others : List RequestForSession}
    (pendingRequests : Dict Int64 (List RequestForSession)) (sessions : List Int64)
    (first : others.length < ((pendingRequests.lookup session).getD []).length) :
    (sessions.map fun other =>
        (((pendingRequests.insert session others).lookup other).getD []).length + 1).sum ≤
      (sessions.map fun other => ((pendingRequests.lookup other).getD []).length + 1).sum := by
  apply sum_le_sum
  intro other _
  rw [Finmap.lookup_insert_ite]
  split
  next isSession =>
    rw [isSession]
    simp only [Option.getD_some]
    omega
  next => exact le_refl _

theorem rank_transition (sound : processor.QueuesSound parallel)
    (moves : Transition parallel surroundings processor after handed)
    (inside : processor.stage ≠ .waiting) (stillInside : after.stage ≠ .waiting) :
    after.rank parallel < processor.rank parallel := by
  cases moves with
  | sample stands => exact absurd stands inside
  | sampleErrors stands | move stands _ isMoved | movedAll stands _ =>
    apply rank_lt_of_outer
    simp [outerRank, stands]
  | readAll stands =>
    have isRunner := sound.isRunner stands
    apply rank_lt_of_outer
    simp only [outerRank, stands]
    omega
  | @eraseSession _ _ _ erased rest stands isEmpty =>
    apply rank_lt_of_inner
    · simp [outerRank, stands]
    · have notMore : (rest.map fun other =>
          (((processor.pendingRequests.erase erased).lookup other).getD []).length + 1).sum ≤
          (rest.map fun other => (processor.pending other).length + 1).sum := by
        apply sum_le_sum
        intro other _
        rw [pending_erase]
        split <;> simp
      simp only [innerRank, stands, pending_mk, map_cons, sum_cons]
      omega
  | @read _ _ _ own rest request others stands first _ =>
    apply rank_lt_of_inner
    · simp [outerRank, stands]
    · have fewer : others.length < ((processor.pendingRequests.lookup own).getD []).length := by
        rw [← RequestProcessor.pending, first]
        exact Nat.lt_succ_self _
      have notMore := innerRank_read processor.pendingRequests rest fewer
      simp only [innerRank, stands, pending_mk, map_cons, sum_cons, pending_insert,
        if_true, first, length_cons]
      simp only [pending_insert] at notMore
      exact Nat.add_lt_add_of_lt_of_le (by omega) notMore
  | stopAtWrite stands first _ =>
    apply rank_lt_of_inner
    · simp [outerRank, stands]
    · simp [innerRank, stands, RequestProcessor.pending]
  | committedAll stands | stopAtPending stands =>
    apply rank_lt_of_outer
    simp only [beginErrors] at stillInside ⊢
    split at stillInside
    · exact absurd rfl stillInside
    · simp_all [outerRank]
  | failedAll => exact absurd rfl stillInside
  | fail stands fails =>
    have failing := (errorStep_frame fails).2.2.1
    apply rank_lt_of_inner
    · simp [outerRank, stands, failing]
    · simp [innerRank, stands, failing]
  | pop stands =>
    apply rank_lt_of_inner
    · simp [outerRank, stands, popStep]
    · simp [innerRank, stands, popStep]
  | peekNone stands _ =>
    apply rank_lt_of_inner
    · simp [outerRank, stands]
    · simp [innerRank, stands]
  | applySession stands | applyRemote stands | applyAuth stands | applyLocal stands =>
    apply rank_lt_of_inner
    · simp [outerRank, stands]
    · simp [innerRank, stands]
      omega

def Clean (parallel : ℕ) (processor : RequestProcessor) (session : Int64) : Prop :=
  processor.requestsQueue (getRunnerId parallel session) = [] ∧
    ∀ request ∈ (processor.pending session).head?, request.request.isReadRequest = false

/-- What a turn of the loop has done so far, when nobody else does anything. -/
def Cleared (parallel : ℕ) (processor : RequestProcessor) : Prop :=
  match processor.stage with
  | .sampling committed => committed = processor.committedQueue.length
  | .moving runner committed _ =>
    committed = processor.committedQueue.length ∧
      ∀ session, getRunnerId parallel session < runner → processor.Clean parallel session
  | .reading runner sessions committed _ =>
    committed = processor.committedQueue.length ∧ processor.requestsQueue runner = [] ∧
      (∀ session ∈ sessions, getRunnerId parallel session = runner) ∧
      ∀ session, getRunnerId parallel session ≤ runner → session ∉ sessions →
        processor.Clean parallel session
  | .committing left _ =>
    left = processor.committedQueue.length ∧ ∀ session, processor.Clean parallel session
  | .waiting | .popping .. | .failing _ => False

theorem Clean.of_eq (clean : processor.Clean parallel session)
    (sameQueue : after.requestsQueue (getRunnerId parallel session) =
      processor.requestsQueue (getRunnerId parallel session))
    (samePending : after.pending session = processor.pending session) :
    after.Clean parallel session := ⟨sameQueue ▸ clean.1, samePending ▸ clean.2⟩

variable {runner committed errors : ℕ}

theorem cleared_move (stands : processor.stage = .moving runner committed errors)
    (placed : ∀ request ∈ processor.requestsQueue runner,
      runner = getRunnerId parallel request.sessionId) (cleared : processor.Cleared parallel) :
    Cleared parallel { processor.moveRequestToPendingQueue runner with
      stage := .reading runner (surroundings.order.list runner
        ((processor.moveRequestToPendingQueue runner).sessionsOf parallel runner))
          committed errors } := by
  have emptied : (processor.moveRequestToPendingQueue runner).requestsQueue runner = [] :=
    Function.update_self _ _ _
  simp only [Cleared, stands] at cleared ⊢
  refine ⟨cleared.1, emptied, ?_, ?_⟩
  · intro session isListed
    rw [Enumeration.mem_list, sessionsOf, Finset.mem_filter] at isListed
    exact isListed.2
  · intro session isBefore notListed
    rw [Enumeration.mem_list, sessionsOf, Finset.mem_filter] at notListed
    rcases Nat.lt_or_eq_of_le isBefore with isEarlier | isOwn
    · apply (cleared.2 session isEarlier).of_eq
      · exact Function.update_of_ne (Nat.ne_of_lt isEarlier) _ _
      · have none : movedOf session (processor.requestsQueue runner) = [] := by
          rw [movedOf, filter_eq_nil_iff]
          intro request isMember own
          have isSession : request.sessionId = session := by simp_all
          have onRunner := placed request isMember
          rw [isSession] at onRunner
          omega
        have moved := @pending_move processor runner session
        rw [none, append_nil] at moved
        exact moved
    · -- Nothing of the session was in the queue, or it would be listed.
      have notPending : (processor.moveRequestToPendingQueue runner).pendingRequests.lookup
          session = none := by
        rw [Finmap.lookup_eq_none, ← Finmap.mem_keys]
        intro isKey
        exact notListed ⟨isKey, isOwn⟩
      refine ⟨isOwn ▸ emptied, ?_⟩
      rw [pending_mk, notPending]
      simp

theorem cleared_reading {own : Int64} {rest sessions : List Int64}
    (stands : processor.stage = .reading runner (own :: rest) committed errors)
    (cleared : processor.Cleared parallel)
    (standsAfter : after.stage = .reading runner sessions committed errors)
    (sameQueues : after.requestsQueue = processor.requestsQueue)
    (sameCommitted : after.committedQueue = processor.committedQueue)
    (samePending : ∀ session, session ≠ own → after.pending session = processor.pending session)
    (isListed : sessions = own :: rest ∨ sessions = rest ∧
      ∀ request ∈ (after.pending own).head?, request.request.isReadRequest = false) :
    after.Cleared parallel := by
  simp only [Cleared, stands] at cleared
  simp only [Cleared, standsAfter, sameQueues, sameCommitted]
  rcases cleared with ⟨counted, emptied, onRunner, clean⟩
  refine ⟨counted, emptied, ?_, ?_⟩
  · intro session isMember
    apply onRunner
    rcases isListed with rfl | ⟨rfl, _⟩
    · exact isMember
    · exact mem_cons_of_mem _ isMember
  · intro session isBefore notMember
    by_cases isOwn : session = own
    · subst isOwn
      rcases isListed with rfl | ⟨_, noRead⟩
      · exact absurd mem_cons_self notMember
      · refine ⟨?_, noRead⟩
        rw [sameQueues, onRunner session mem_cons_self]
        exact emptied
    · apply (clean session isBefore ?_).of_eq (by rw [sameQueues]) (samePending session isOwn)
      intro wasMember
      rcases isListed with rfl | ⟨rfl, _⟩
      · exact notMember wasMember
      · exact notMember ((mem_cons.mp wasMember).resolve_left isOwn)

theorem cleared_transition (positive : 0 < parallel) (cleared : processor.Cleared parallel)
    (placed : ∀ {runner request}, request ∈ processor.requestsQueue runner →
      runner = getRunnerId parallel request.sessionId)
    (before : ∀ left errors, processor.stage ≠ .committing left errors)
    (moves : Transition parallel surroundings processor after handed) :
    after.Cleared parallel := by
  cases moves with
  | sampleErrors stands =>
    simp only [Cleared, stands] at cleared ⊢
    exact ⟨cleared, fun _ impossible => absurd impossible (Nat.not_lt_zero _)⟩
  | move stands _ isMoved =>
    subst isMoved
    exact cleared_move stands (fun _ isMember => placed isMember) cleared
  | movedAll stands noRunner =>
    simp only [Cleared, stands] at cleared ⊢
    refine ⟨cleared.1, ?_⟩
    intro session
    have isRunner : getRunnerId parallel session < parallel := Nat.mod_lt _ positive
    exact (cleared.2 session (Nat.lt_of_lt_of_le isRunner noRunner)).of_eq rfl rfl
  | readAll stands =>
    simp only [Cleared, stands] at cleared ⊢
    refine ⟨cleared.1, ?_⟩
    intro session isBefore
    exact (cleared.2.2.2 session (Nat.lt_succ_iff.mp isBefore) not_mem_nil).of_eq rfl rfl
  | eraseSession stands isEmpty =>
    refine cleared_reading stands cleared rfl rfl rfl ?_ ?_
    · intro session isOther
      rw [pending_mk, pending_erase, if_neg isOther]
    · rw [pending_mk, pending_erase, if_pos rfl]
      exact .inr ⟨rfl, by simp⟩
  | read stands first isRead =>
    refine cleared_reading stands cleared rfl rfl rfl ?_ ?_
    · intro session isOther
      rw [pending_mk, pending_insert, if_neg isOther]
    · exact .inl rfl
  | stopAtWrite stands first isWrite =>
    refine cleared_reading stands cleared rfl rfl rfl ?_ ?_
    · intro _ _
      rfl
    · refine .inr ⟨rfl, ?_⟩
      intro request isHead
      rw [pending_mk, ← RequestProcessor.pending, first] at isHead
      cases isHead
      exact isWrite
  | sample stands | failedAll stands | fail stands | pop stands => simp [Cleared, stands] at cleared
  | committedAll stands | peekNone stands | applySession stands | applyRemote stands
  | applyAuth stands | stopAtPending stands | applyLocal stands =>
    exact absurd stands (before _ _)

end RequestProcessor

namespace ProcessorHistory

variable {parallel : ℕ} {session : Int64} {surroundings : Surroundings}
  {history after : ProcessorHistory}

open RequestProcessor

def turn (parallel : ℕ) (history : ProcessorHistory) (surroundings : Surroundings) :
    Option ProcessorHistory := history.next parallel (.run surroundings)

/-- The session is local and the leader is alive. -/
def Connected (session : Int64) (_ : ProcessorHistory) (surroundings : Surroundings) : Prop :=
  surroundings.isLocalSession session = true ∧ surroundings.isLeaderAlive = true

/-- Every write of the session is committed. -/
def AllCommitted (session : Int64) (history : ProcessorHistory) : Prop :=
  ofSession session history.committed = (ofSession session history.pushed).filter isWrite

/-- Every request of the session is applied. -/
def AllApplied (session : Int64) (history : ProcessorHistory) : Prop :=
  ofSession session history.processed = ofSession session history.pushed

def remaining (session : Int64) (history : ProcessorHistory) : ℕ :=
  history.processor.unapplied.length +
    ((ofSession session history.pushed).length - (ofSession session history.processed).length)

theorem turn_isSome (sound : history.processor.QueuesSound parallel) :
    (history.turn parallel surroundings).isSome := by
  rw [turn, next, Option.isSome_map]
  apply step_isSome
  intro left stands isEmpty
  have counted := sound.counted
  simp [stands, isEmpty] at counted

theorem sampled_of_waiting (waits : history.processor.stage = .waiting)
    (moves : history.turn parallel surroundings = some after) :
    after = { history with processor := { history.processor with
      stage := .sampling history.processor.committedQueue.length } } := by
  simp only [turn, next, step, waits, Option.map_some, hand, Option.some.injEq] at moves
  exact moves.symm

/-- The loop gets back to its top, and what is kept on the way holds there. -/
theorem reach_waiting {allowed : ProcessorHistory → Surroundings → Prop}
    {property : ProcessorHistory → Prop}
    (sound : ∀ {before}, property before → before.processor.QueuesSound parallel)
    (kept : ∀ {before surroundings after}, property before → allowed before surroundings →
      before.turn parallel surroundings = some after → property after)
    (holds : property history) :
    Inevitable (turn parallel) allowed
      (fun last => property last ∧ last.processor.stage = .waiting) history := by
  refine Inevitable.of_measure (fun last => last.processor.rank parallel) property ?_ holds
  intro before isKept notReached
  refine ⟨fun _ _ => turn_isSome (sound isKept), ?_⟩
  intro surroundings after meets moves
  have stillKept := kept isKept meets moves
  by_cases isWaiting : after.processor.stage = .waiting
  · exact .inl ⟨stillKept, isWaiting⟩
  · refine .inr ⟨stillKept, ?_⟩
    have inside : before.processor.stage ≠ .waiting := fun waits => notReached ⟨isKept, waits⟩
    rcases next_run moves with ⟨processor, handed, transition, rfl⟩
    rw [hand_processor] at isWaiting ⊢
    exact rank_transition (sound isKept) transition inside isWaiting

theorem processed_hand (handed : Handed) :
    (ofSession session history.processed).length ≤
      (ofSession session (history.hand handed).processed).length := by
  cases handed with
  | process request => simp [hand]
  | _ => exact le_refl _

variable {processor last : RequestProcessor} {handed : Handed}

theorem unapplied_length_le (moves : Transition parallel surroundings processor last handed) :
    last.unapplied.length ≤ processor.unapplied.length := by
  cases moves with
  | move stands _ isMoved =>
    subst isMoved
    simp [unapplied, stands, moveRequestToPendingQueue]
  | committedAll stands | stopAtPending stands =>
    simp only [unapplied, stands, beginErrors]
    split <;> simp
  | fail stands fails =>
    rcases errorStep_frame fails with ⟨_, sameQueue, stage, _⟩
    simp [unapplied, stands, sameQueue, stage]
  | pop stands => simp [unapplied, stands, popStep]
  | applySession stands | applyRemote stands | applyAuth stands | applyLocal stands =>
    simp [unapplied, stands]
  | sample stands | sampleErrors stands | movedAll stands | readAll stands | eraseSession stands
  | read stands | stopAtWrite stands | peekNone stands | failedAll stands =>
    simp [unapplied, stands]

theorem remaining_turn_le (moves : history.turn parallel surroundings = some after) :
    after.remaining session ≤ history.remaining session := by
  rcases next_run moves with ⟨processor, handed, transition, rfl⟩
  have shorter := unapplied_length_le transition
  have more := @processed_hand session { history with processor := processor } handed
  simp only [remaining, hand_processor, hand_pushed]
  dsimp only at more
  omega

/-- All writes of the session are committed, so that its requests can be applied. -/
structure Serving (parallel : ℕ) (session : Int64) (history : ProcessorHistory) : Prop where
  sound : history.SessionSound parallel session
  committed : history.AllCommitted session

theorem Serving.turn (positive : 0 < parallel) (serving : history.Serving parallel session)
    (connected : history.Connected session surroundings)
    (moves : history.turn parallel surroundings = some after) :
    after.Serving parallel session := by
  have orderly : history.Orderly session (.run surroundings) := connected
  refine ⟨serving.sound.next positive orderly moves, ?_⟩
  rcases next_run moves with ⟨processor, handed, _, rfl⟩
  rw [AllCommitted, hand_committed, hand_pushed]
  exact serving.committed

variable {left errors : ℕ}

theorem allApplied_of_cleared (serving : history.Serving parallel session)
    (cleared : history.processor.Cleared parallel)
    (stands : history.processor.stage = .committing left errors)
    (isEmpty : history.processor.committedQueue = []) : history.AllApplied session := by
  simp only [Cleared, stands] at cleared
  rcases cleared.2 session with ⟨noQueue, noRead⟩
  have ordered := serving.sound.ordered
  have noneUnapplied : (history.lane parallel session).unapplied = [] := by
    simp [lane, unapplied, stands, isEmpty]
  have noneQueued : (history.lane parallel session).queued = [] := by
    simp [lane, noQueue]
  have waits : (history.lane parallel session).waiting =
      (history.processor.pending session).map (·.content) := by
    simp [lane, waitingOf, stands]
  have noneWaiting : (history.lane parallel session).waiting = [] := by
    cases pending_eq : history.processor.pending session with
    | nil => rw [waits, pending_eq, map_nil]
    | cons head others =>
      have isWrites := noRead head (by rw [pending_eq]; rfl)
      have isReads := @Lane.Ordered.isWrite_eq_false _ _ _ _ _ ordered serving.committed
        noneUnapplied head.content (by rw [waits, pending_eq]; simp)
      simp [isWrite, RequestForSession.content, isWrites] at isReads
  have sent := ordered.sent_eq
  rw [noneWaiting, noneQueued, append_nil, append_nil] at sent
  exact sent

/-- A committed request is applied, or the loop stops at a request that has failed. -/
theorem committing_cases (cleared : processor.Cleared parallel)
    (stands : processor.stage = .committing left errors)
    (notEmpty : processor.committedQueue ≠ [])
    (moves : Transition parallel surroundings processor last handed) :
    last.unapplied.length < processor.unapplied.length ∨
      processor.errorRequestIds ≠ ∅ ∧ last = processor.beginErrors errors := by
  simp only [Cleared, stands] at cleared
  cases moves with
  | stopAtPending standsHere first noSession isLocal noAuth stops =>
    rename_i request _
    rw [stands] at standsHere
    cases standsHere
    refine .inr ⟨?_, rfl⟩
    intro noErrors
    unfold shouldProcessCommittedRequest at stops
    split at stops
    · cases stops
    next first _ isFirst =>
      have noRead := (cleared.2 request.sessionId).2 first (by rw [isFirst]; rfl)
      simp [noRead, noErrors] at stops
      split at stops <;> cases stops
  | committedAll standsHere =>
    rw [stands] at standsHere
    cases standsHere
    exact absurd (length_eq_zero_iff.mp cleared.1.symm) notEmpty
  | peekNone _ isEmpty => exact absurd isEmpty notEmpty
  | applySession _ first | applyRemote _ first | applyAuth _ first | applyLocal _ first =>
    exact .inl (by simp [unapplied, stands, first])
  | sample standsHere | sampleErrors standsHere | move standsHere | movedAll standsHere
  | readAll standsHere | eraseSession standsHere | read standsHere | stopAtWrite standsHere
  | pop standsHere | failedAll standsHere | fail standsHere =>
    rw [stands] at standsHere
    cases standsHere

theorem remaining_lt_of_cleared (serving : history.Serving parallel session)
    (cleared : history.processor.Cleared parallel)
    (stands : history.processor.stage = .committing left errors)
    (notEmpty : history.processor.committedQueue ≠ [])
    (moves : history.turn parallel surroundings = some after) :
    after.remaining session < history.remaining session := by
  rcases next_run moves with ⟨processor, handed, transition, rfl⟩
  have more := @processed_hand session { history with processor := processor } handed
  have shorter := (committing_cases cleared stands notEmpty transition).resolve_right
    fun stops => stops.1 serving.sound.calm.1
  simp only [remaining, hand_processor, hand_pushed]
  dsimp only at more
  omega

theorem Serving.apply_one (positive : 0 < parallel) (serving : history.Serving parallel session)
    (cleared : history.processor.Cleared parallel) :
    Inevitable (ProcessorHistory.turn parallel) (Connected session)
      (fun last => last.AllApplied session ∨
        last.Serving parallel session ∧ last.remaining session < history.remaining session)
      history := by
  refine Inevitable.of_measure (fun last => last.processor.rank parallel)
    (fun last => last.Serving parallel session ∧
      last.remaining session ≤ history.remaining session ∧ last.processor.Cleared parallel) ?_
    ⟨serving, le_refl _, cleared⟩
  rintro before ⟨isServing, bound, isCleared⟩ notReached
  refine ⟨fun _ _ => turn_isSome isServing.sound.laneSound.toQueuesSound, ?_⟩
  intro surroundings after connected moves
  have stillServing := isServing.turn positive connected moves
  by_cases isCommitting : ∃ left errors, before.processor.stage = .committing left errors
  · rcases isCommitting with ⟨left, errors, stands⟩
    by_cases isEmpty : before.processor.committedQueue = []
    · have done := allApplied_of_cleared isServing isCleared stands isEmpty
      exact absurd (.inl done) notReached
    · have fewer := remaining_lt_of_cleared isServing isCleared stands isEmpty moves
      exact .inl (.inr ⟨stillServing, Nat.lt_of_lt_of_le fewer bound⟩)
  · have stillBound := (remaining_turn_le moves).trans bound
    rcases next_run moves with ⟨processor, handed, transition, rfl⟩
    have stillCleared := cleared_transition positive isCleared
      isServing.sound.laneSound.placed
      (fun left errors stands => isCommitting ⟨left, errors, stands⟩) transition
    have inside : ∀ {middle : RequestProcessor}, middle.Cleared parallel →
        middle.stage ≠ .waiting := by
      intro middle isCleared waits
      simp [Cleared, waits] at isCleared
    refine .inr ⟨⟨stillServing, stillBound, ?_⟩, ?_⟩
    · rw [hand_processor]
      exact stillCleared
    · rw [hand_processor]
      exact rank_transition isServing.sound.laneSound.toQueuesSound transition
        (inside isCleared) (inside stillCleared)

theorem Serving.from_waiting (positive : 0 < parallel) (serving : history.Serving parallel session)
    (waits : history.processor.stage = .waiting) :
    Inevitable (ProcessorHistory.turn parallel) (Connected session)
      (fun last => last.AllApplied session ∨
        last.Serving parallel session ∧ last.remaining session < history.remaining session)
      history := by
  apply Inevitable.later (fun _ _ => turn_isSome serving.sound.laneSound.toQueuesSound)
  intro surroundings after connected moves
  have stillServing := serving.turn positive connected moves
  have sampled := sampled_of_waiting waits moves
  have sameRemaining : after.remaining session = history.remaining session := by
    rw [sampled]
    simp [remaining, unapplied, waits]
  have cleared : after.processor.Cleared parallel := by
    rw [sampled]
    rfl
  have inevitable := stillServing.apply_one positive cleared
  rw [sameRemaining] at inevitable
  exact inevitable

theorem Serving.allApplied (positive : 0 < parallel) (serving : history.Serving parallel session) :
    Inevitable (ProcessorHistory.turn parallel) (Connected session) (AllApplied session)
      history := by
  refine Inevitable.of_rounds (remaining session) (fun {before} serving => ?_)
    (fun serving waits => serving.from_waiting positive waits) serving
  refine reach_waiting (fun kept => kept.1.sound.laneSound.toQueuesSound) ?_ ⟨serving, le_refl _⟩
  intro middle surroundings after kept connected moves
  exact ⟨kept.1.turn positive connected moves, (remaining_turn_le moves).trans kept.2⟩

/-- Everyone in `sessions` is orderly. -/
def AllOrderly (sessions : Int64 → Prop) (history : ProcessorHistory) (call : ProcessorCall) :
    Prop := ∀ session, sessions session → history.Orderly session call

/-- The requests of each session are applied in the order in which they were sent, none twice and
none left out; and once its writes are committed all of them will be. -/
theorem session_fifo (positive : 0 < parallel) {sessions : Int64 → Prop}
    (reached : ReachableBy (next parallel) (AllOrderly sessions) {} history)
    (isSession : sessions session) :
    ofSession session history.processed <+: ofSession session history.pushed ∧
      (history.AllCommitted session →
        Inevitable (turn parallel) (Connected session) (AllApplied session) history) := by
  have sound : history.SessionSound parallel session := by
    refine ReachableBy.invariant (fun state => state.SessionSound parallel session)
      sessionSound_start ?_ reached
    intro before after call isSound orderly moves
    exact isSound.next positive (orderly session isSession) moves
  refine ⟨sound.ordered.applied_prefix, ?_⟩
  intro committed
  exact Serving.allApplied positive ⟨sound, committed⟩

def sampleWrite : RequestForSession where
  sessionId := 1
  xid := 1
  request := .single (.remove { path := ascii "/a" })

def sampleRead : RequestForSession where
  sessionId := 1
  xid := 2
  request := .single (.get (ascii "/a") false)

def laterWrite : RequestForSession where
  sessionId := 1
  xid := 3
  request := .single (.remove { path := ascii "/b" })

def mixedCalls : List ProcessorCall :=
  [.push sampleWrite, .push sampleRead, .push laterWrite, .commit sampleWrite,
    .commit laterWrite] ++ replicate 14 (.run (.sample true))

/-- Of a write, a read and another write, the first two are applied. -/
theorem session_fifo_mixedCalls :
    ∃ history, ReachableBy (next 1) (AllOrderly (· = 1)) {} history ∧
      (ofSession 1 history.processed).map Prod.fst = [1, 2] ∧
      ofSession 1 history.processed <+: ofSession 1 history.pushed ∧
      Inevitable (turn 1) (Connected 1) (AllApplied 1) history := by
  have runs : ∀ call ∈ replicate 14 (ProcessorCall.run (.sample true)), ∀ history,
      AllOrderly (· = 1) history call := by
    intro call isRun history session _
    rw [eq_of_mem_replicate isRun]
    exact ⟨rfl, rfl⟩
  have meets : runMeets (next 1) (AllOrderly (· = 1)) {} mixedCalls := by
    refine ⟨?_, ?_, ?_, ?_, ?_, runMeets_of_forall_mem runs _⟩
    · rintro session rfl _
      exact ⟨by decide, by decide⟩
    · rintro session rfl _
      exact ⟨by decide, by decide⟩
    · rintro session rfl _
      exact ⟨by decide, by decide⟩
    · rintro session rfl _ _
      exact ⟨[laterWrite.content], rfl⟩
    · rintro session rfl _ _
      exact ⟨[], rfl⟩
  refine exists_reached_of (fun history =>
    (ofSession 1 history.processed).map Prod.fst = [1, 2] ∧ history.AllCommitted 1) mixedCalls
    ⟨meets, _, rfl, by decide +kernel, rfl⟩ ?_
  rintro history reached ⟨isApplied, committed⟩
  have served := session_fifo Nat.one_pos reached rfl
  exact ⟨isApplied, served.1, served.2 committed⟩

end ProcessorHistory

end RaftKeeper
