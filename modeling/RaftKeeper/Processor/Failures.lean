import RaftKeeper.Lib.Run
import RaftKeeper.Processor.Transition

/-!
# Failures that are reported twice

`error_requests` lists the failures, and `error_request_ids` is the set of their ids. The loop
counts and waits by the set and takes from the list. Two failures with one id, such as those of two
Auths of a session, are one element of the set, which is gone with the first of them.
-/

namespace RaftKeeper

open List

namespace RequestProcessor

/-- The condition of `run` to wait for a notification. -/
def needWait (processor : RequestProcessor) (parallel : ℕ) : Bool :=
  processor.errorRequestIds = ∅ && (range parallel).all (processor.requestsQueue · = []) &&
    processor.committedQueue = [] &&
      processor.pendingRequests.keys.filter (processor.pending · ≠ []) = ∅

/-- Every failure has an id of its own, and the set holds these. -/
def Matched (processor : RequestProcessor) : Prop :=
  (processor.errorRequests.map ErrorRequest.getRequestId).Nodup ∧
    processor.errorRequestIds = (processor.errorRequests.map ErrorRequest.getRequestId).toFinset

variable {parallel : ℕ} {surroundings : Surroundings} {processor after : RequestProcessor}
  {handed : Handed}

theorem Matched.transition (matched : processor.Matched)
    (moves : Transition parallel surroundings processor after handed) : after.Matched := by
  cases moves with
  | move _ _ isMoved =>
    subst isMoved
    exact matched
  | fail _ fails =>
    rcases errorStep_cases fails with ⟨error, rest, _, isErrors, rfl, _⟩
    rcases matched with ⟨nodup, isSet⟩
    rw [isErrors, map_cons, nodup_cons] at nodup
    rw [isErrors, map_cons, toFinset_cons] at isSet
    refine ⟨nodup.2, ?_⟩
    rw [isSet, Finset.erase_insert]
    rw [mem_toFinset]
    exact nodup.1
  | _ => exact matched

end RequestProcessor

namespace ProcessorHistory

variable {parallel : ℕ} {history after : ProcessorHistory}

/-- A failure is reported only when no failure with the same id is listed. -/
def reportsNew (history : ProcessorHistory) : ProcessorCall → Prop
  | .onError error =>
    error.getRequestId ∉ history.processor.errorRequests.map ErrorRequest.getRequestId
  | _ => True

instance {history : ProcessorHistory} : (call : ProcessorCall) → Decidable (history.reportsNew call)
  | .onError _ => inferInstanceAs (Decidable (_ ∉ _))
  | .push _ | .commit _ | .run _ => .isTrue trivial

theorem reachable_matched (reached : ReachableBy (next parallel) reportsNew {} history) :
    history.processor.Matched := by
  refine reached.invariant (·.processor.Matched) ⟨.nil, rfl⟩ ?_
  intro before last call matched meets moves
  cases call with
  | push => exact next_push moves ▸ matched
  | commit => exact next_commit moves ▸ matched
  | onError error =>
    rcases matched with ⟨nodup, isSet⟩
    rw [(next_onError moves).2]
    simp only [RequestProcessor.Matched, map_append, map_singleton]
    refine ⟨?_, ?_⟩
    · rw [nodup_append_comm]
      exact nodup_cons.mpr ⟨meets, nodup⟩
    · rw [isSet]
      ext id
      simp
  | run surroundings =>
    rcases next_run moves with ⟨processor, handed, transition, rfl⟩
    rw [hand_processor]
    exact matched.transition transition

/-- The ids are those of the listed failures, and the loop does not wait while there is one. -/
theorem failures_not_forgotten (reached : ReachableBy (next parallel) reportsNew {} history) :
    history.processor.errorRequestIds =
        (history.processor.errorRequests.map ErrorRequest.getRequestId).toFinset ∧
      (history.processor.errorRequests ≠ [] → history.processor.needWait parallel = false) := by
  have isSet := (reachable_matched reached).2
  refine ⟨isSet, fun listed => ?_⟩
  have hasIds : history.processor.errorRequestIds ≠ ∅ := by
    rw [isSet, ne_eq, toFinset_eq_empty_iff, map_eq_nil_iff]
    exact listed
  simp [RequestProcessor.needWait, hasIds]

end ProcessorHistory

def ErrorRequest.sampleAuth : ErrorRequest where
  timeout := true
  sessionId := 1
  xid := authXid
  opnum := .auth

namespace ProcessorHistory

def turnAfter (errors : List ErrorRequest) : List ProcessorCall :=
  errors.map .onError ++ replicate 8 (.run (.sample true))

theorem failures_not_forgotten_sampleAuth :
    ∃ history, ReachableBy (next 1) reportsNew {} history ∧
      history.processor.errorRequests.length = 1 ∧ history.processor.needWait 1 = false := by
  refine exists_reached_of (·.processor.errorRequests.length = 1) [.onError .sampleAuth]
    (by decide +kernel) ?_
  intro history reached isOne
  refine ⟨isOne, (failures_not_forgotten reached).2 ?_⟩
  intro isEmpty
  rw [isEmpty] at isOne
  cases isOne

/-- The second of two failed Auths is left in the list, and the loop waits. -/
theorem twoAuths_forgotten :
    (runFrom (next 1) {} (turnAfter [.sampleAuth, .sampleAuth])).map (fun history =>
      (history.processor.stage, history.processor.errorRequests.map ErrorRequest.getRequestId,
        history.processor.errorRequestIds, history.processor.needWait 1,
        history.responded.length)) =
      some (.waiting, [⟨1, authXid⟩], ∅, true, 1) := by
  decide +kernel

end ProcessorHistory

end RaftKeeper
