import RaftKeeper.Common.Path
import RaftKeeper.Lib.Inevitable

/-!
# Sending responses

Other threads push the responses of a client, and the reactor calls
`ConnectionHandler::onSocketWritable` as long as that is registered. What finds no room in
`send_buf` stays in `out_buffer` until the next call. A response stands here for its encoding.
-/

namespace RaftKeeper

open List

/-- Where the reactor is in `onSocketWritable`. -/
inductive WritablePhase
  | idle | looping | sending | checking | locking

/-- The sending half of a `ConnectionHandler`, with everything that was pushed and sent. -/
structure ResponseSender where
  responses : List Bytes := []
  sendBuf : Bytes := []
  outBuffer : Option Bytes := none
  socketWritableEventRegistered : Bool := false
  phase : WritablePhase := .idle
  pushed : Bytes := []
  sent : Bytes := []

/-- A response is pushed, or the reactor takes a step. -/
inductive SenderStep
  | push (response : Bytes)
  /-- The reactor goes on; if it sends, the socket accepts at most so many bytes. -/
  | run (accepted : ℕ)

namespace ResponseSender

def sentBufferSize : ℕ := 16384

def copyBufferToSend (sender : ResponseSender) (out : Bytes) : ResponseSender :=
  let room := sentBufferSize - sender.sendBuf.length
  if sender.sendBuf.length + out.length ≤ sentBufferSize then
    { sender with sendBuf := sender.sendBuf ++ out, outBuffer := none }
  else
    { sender with sendBuf := sender.sendBuf ++ out.take room, outBuffer := some (out.drop room) }

def allSent (sender : ResponseSender) : Bool :=
  sender.responses.isEmpty && sender.sendBuf.isEmpty && sender.outBuffer.isNone

/-- A push and the second check of `remove_event_handler_if_needed` hold the mutex. -/
def next (sender : ResponseSender) : SenderStep → Option ResponseSender
  | .push response =>
    some { sender with
      responses := sender.responses ++ [response]
      socketWritableEventRegistered := true
      pushed := sender.pushed ++ response }
  | .run accepted =>
    match sender.phase with
    | .idle =>
      if sender.socketWritableEventRegistered then
        some { sender.outBuffer.elim sender sender.copyBufferToSend with phase := .looping }
      else none
    | .looping =>
      if sender.responses ≠ [] ∧ sender.sendBuf.length < sentBufferSize then
        some (copyBufferToSend { sender with responses := sender.responses.tail }
          (sender.responses.headD []))
      else some { sender with phase := .sending }
    | .sending =>
      some { sender with
        sent := sender.sent ++ sender.sendBuf.take accepted
        sendBuf := sender.sendBuf.drop accepted
        phase := .checking }
    | .checking => some { sender with phase := if sender.allSent then .locking else .idle }
    | .locking =>
      some { sender with socketWritableEventRegistered := !sender.allSent, phase := .idle }

def unsent (sender : ResponseSender) : Bytes :=
  sender.sendBuf ++ sender.outBuffer.getD [] ++ sender.responses.flatten

/-- The loop overwrites `outBuffer`, so nothing may be left in it when there is room. -/
structure Sound (sender : ResponseSender) : Prop where
  isPushed : sender.sent ++ sender.unsent = sender.pushed
  isFull : sender.phase = .looping → sender.sendBuf.length < sentBufferSize →
    sender.outBuffer = none
  isRegistered : sender.socketWritableEventRegistered ∨ sender.phase = .idle ∧ sender.allSent

/-- The reactor sends nothing only if a response was pushed after the loop. -/
def rank (sender : ResponseSender) : ℕ :=
  match sender.phase with
  | .sending => if sender.sendBuf = [] then 7 else 2
  | .checking => 6
  | .locking => 5
  | .idle => 4
  | .looping => 3

def work (sender : ResponseSender) : ℕ :=
  8 * (sender.unsent.length + sender.responses.length) + sender.rank

variable {sender after : ResponseSender}

theorem copyBufferToSend_spec (sender : ResponseSender) (out : Bytes) :
    ∃ buffer left,
      sender.copyBufferToSend out = { sender with sendBuf := buffer, outBuffer := left } ∧
      buffer ++ left.getD [] = sender.sendBuf ++ out ∧
      (buffer.length < sentBufferSize → left = none) := by
  unfold copyBufferToSend
  split
  · exact ⟨_, _, rfl, by simp, fun _ => rfl⟩
  · refine ⟨_, _, rfl, by simp, ?_⟩
    simp
    omega

/-- A step of the reactor makes progress if the socket accepts bytes. -/
theorem run_sound {accepted : ℕ} (sound : sender.Sound)
    (moves : sender.next (.run accepted) = some after) :
    after.Sound ∧ after.pushed = sender.pushed ∧
      (0 < accepted → sender.unsent ≠ [] → after.work < sender.work) := by
  rcases sender with ⟨responses, sendBuf, outBuffer, registered, phase, pushed, sent⟩
  rcases sound with ⟨isPushed, isFull, isRegistered⟩
  dsimp only [unsent] at isPushed isFull isRegistered ⊢
  cases phase with
  | idle =>
    rcases Option.ite_none_right_eq_some.mp moves with ⟨isRegistered, isAfter⟩
    cases isAfter
    cases outBuffer with
    | none =>
      refine ⟨⟨isPushed, fun _ _ => rfl, .inl isRegistered⟩, rfl, ?_⟩
      simp [work, rank, unsent]
    | some out =>
      rcases copyBufferToSend_spec ⟨responses, sendBuf, some out, registered, .idle, pushed, sent⟩
        out with ⟨buffer, left, copies, isSplit, isFull⟩
      rw [Option.elim_some, copies]
      refine ⟨⟨?_, fun _ => isFull, .inl isRegistered⟩, rfl, ?_⟩
      · rwa [unsent, isSplit]
      · simp [work, rank, unsent, isSplit]
  | looping =>
    replace isRegistered : registered = true := by simpa using isRegistered
    simp only [next] at moves
    split at moves
    next isRoom =>
      rcases exists_cons_of_ne_nil isRoom.1 with ⟨response, rest, rfl⟩
      cases isFull rfl isRoom.2
      rcases copyBufferToSend_spec ⟨rest, sendBuf, none, registered, .looping, pushed, sent⟩
        response with ⟨buffer, left, copies, isSplit, isFull⟩
      cases moves.symm.trans (congrArg some copies)
      refine ⟨⟨?_, fun _ => isFull, .inl isRegistered⟩, rfl, ?_⟩
      · simpa [unsent, isSplit] using isPushed
      · simp [work, rank, unsent, isSplit]
    next noRoom =>
      cases moves
      refine ⟨⟨isPushed, by simp, .inl isRegistered⟩, rfl, ?_⟩
      intro _ isLeft
      -- the loop ends with an empty buffer only if nothing is left
      have isThere : sendBuf ≠ [] := by
        rintro rfl
        cases isFull rfl (by decide)
        have noResponses : responses = [] := by simpa [sentBufferSize] using noRoom
        simp [noResponses] at isLeft
      simp [work, rank, unsent, isThere]
  | sending =>
    cases moves
    refine ⟨⟨?_, by simp, .inl (by simpa using isRegistered)⟩, rfl, ?_⟩
    · simpa [unsent, append_assoc, ← append_assoc (take _ _)] using isPushed
    · intro positive _
      cases sendBuf with
      | nil => simp [work, rank, unsent]
      | cons =>
        simp [work, rank, unsent]
        omega
  | checking =>
    cases moves
    refine ⟨⟨isPushed, ?_, .inl (by simpa using isRegistered)⟩, rfl, ?_⟩
    · split <;> simp
    · simp only [work, rank]
      split <;> simp [unsent]
  | locking =>
    cases moves
    refine ⟨⟨isPushed, by simp, ?_⟩, rfl, by simp [work, rank, unsent]⟩
    simp only [allSent]
    grind

/-- A client that goes on reading gets all that was pushed. -/
def Drains (sender : ResponseSender) : Prop :=
  Inevitable (fun sender accepted => sender.next (.run accepted)) (fun _ accepted => 0 < accepted)
    (·.sent = sender.pushed) sender

/-- What was sent is always the beginning of what was pushed, and the reactor is registered as long
as anything is left. -/
theorem responses_sent_in_order (reached : ReachableBy next (fun _ _ => True) {} sender) :
    sender.sent <+: sender.pushed ∧
      (sender.allSent = false → sender.socketWritableEventRegistered) ∧
      sender.Drains := by
  have sound : sender.Sound := by
    refine reached.invariant Sound ⟨rfl, by simp, .inr ⟨rfl, rfl⟩⟩ ?_
    intro before after step sound _ moves
    cases step with
    | push response =>
      cases moves
      exact ⟨by simp [unsent, ← sound.isPushed], sound.isFull, .inl rfl⟩
    | run accepted => exact (run_sound sound moves).1
  refine ⟨⟨_, sound.isPushed⟩, ?_, ?_⟩
  · intro isLeft
    apply sound.isRegistered.resolve_right
    simp [isLeft]
  apply Inevitable.of_measure work (fun last => last.Sound ∧ last.pushed = sender.pushed) ?_
    ⟨sound, rfl⟩
  rintro before ⟨sound, isPushed⟩ notSent
  have isLeft : before.unsent ≠ [] := by
    intro isEmpty
    apply notSent
    rw [← isPushed, ← sound.isPushed, isEmpty, append_nil]
  constructor
  · intro accepted _
    have isRegistered : before.socketWritableEventRegistered := by
      apply sound.isRegistered.resolve_right
      rintro ⟨_, done⟩
      simp only [allSent, Bool.and_eq_true, List.isEmpty_iff, Option.isNone_iff_eq_none] at done
      simp [unsent, done] at isLeft
    simp only [next, isRegistered, if_true]
    repeat' split
    all_goals rfl
  · intro accepted after meets moves
    rcases run_sound sound moves with ⟨soundAfter, samePushed, isLess⟩
    exact .inr ⟨⟨soundAfter, samePushed.trans isPushed⟩, isLess meets isLeft⟩

theorem responses_sent_in_order_partly :
    ∃ sender, ReachableBy next (fun _ _ => True) {} sender ∧ sender.pushed = [1, 2, 3] ∧
      sender.sent = [1] ∧ sender.Drains := by
  refine exists_reached_of (fun sender => sender.pushed = [1, 2, 3] ∧ sender.sent = [1])
    [.push [1, 2], .run 0, .run 0, .run 0, .push [3], .run 1] (by decide) ?_
  rintro sender reached ⟨isPushed, isSent⟩
  exact ⟨isPushed, isSent, (responses_sent_in_order reached).2.2⟩

end ResponseSender

end RaftKeeper
