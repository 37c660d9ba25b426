import RaftKeeper.Store.SetWatches

/-!
# What a call answers

A call of `processRequest` sends watch events and then at most one response to the request.
-/

namespace RaftKeeper

open WatchManager

variable {platform : Platform} {store after : KeeperStore} {call : Call}
  {responses : List ResponseForSession}

/-- Watch events, and then the response to the request or nothing. -/
def Call.Answers (call : Call) (responses : List ResponseForSession) : Prop :=
  ∃ events reply, responses = events ++ reply ∧ (∀ response ∈ events, IsEvent response) ∧
    (reply = [] ∨ ∃ zxid response createTime, reply = [call.answer zxid response createTime])

theorem Call.answers_setResponse {events : List ResponseForSession}
    (isEvents : ∀ response ∈ events, IsEvent response) (zxid : Int64)
    (response : Response) (createTime : Int64) :
    call.Answers (call.setResponse (events ++ [call.answer zxid response createTime])) := by
  unfold setResponse
  split
  · exact ⟨[], [], rfl, by simp, .inl rfl⟩
  · exact ⟨events, _, rfl, isEvents, .inr ⟨zxid, response, createTime, rfl⟩⟩

theorem Call.answers_reply (call : Call) (zxid : Int64) (response : Response) :
    call.Answers (call.setResponse [call.answer zxid response]) :=
  @answers_setResponse call [] (by simp) zxid response 0

namespace KeeperStore

variable {env : Environment} {session : Int64}

theorem cleanEphemeralNodes_isEvent :
    ∀ response ∈ (store.cleanEphemeralNodes env session).2, IsEvent response := by
  unfold cleanEphemeralNodes
  split
  · simp
  · -- The events that are collected over the paths.
    have collected : ∀ (paths : List Bytes) (state : WatchManager × List ResponseForSession),
        (∀ response ∈ state.2, IsEvent response) →
        ∀ response ∈ (paths.foldl (fun state path =>
          ((state.1.processEvent env path .deleted).1,
            state.2 ++ (state.1.processEvent env path .deleted).2)) state).2,
          IsEvent response := by
      intro paths
      induction paths with
      | nil => exact fun _ isEvents => isEvents
      | cons path rest ih =>
        intro state isEvents
        apply ih
        intro response isMember
        rcases List.mem_append.mp isMember with isOld | isNew
        · exact isEvents response isOld
        · exact processEvent_isEvent isNew
    exact collected _ _ (by simp)

variable {manager : WatchManager}

theorem triggerWatches_isEvent {requests : List (Bytes × OpNum)} :
    ∀ response ∈ (triggerWatches env manager requests).2, IsEvent response := by
  induction requests generalizing manager with
  | nil => simp [triggerWatches]
  | cons request rest ih =>
    intro response isMember
    rcases List.mem_append.mp isMember with isFirst | isLater
    · exact processWatches_isEvent isFirst
    · exact ih response isLater

theorem updateWatches_isEvent {request : Request} {answer : Response} :
    ∀ response ∈ (updateWatches env manager session request answer).2, IsEvent response := by
  unfold updateWatches
  split
  · split <;> simp
  · split
    · exact triggerWatches_isEvent
    · simp

theorem processStoreRequest_answers
    (returns : store.processStoreRequest platform call = .returned (after, responses)) :
    call.Answers responses := by
  unfold processStoreRequest at returns
  split at returns
  · cases returns
  · cases returns
  · cases returns
  · cases returns
    exact Call.answers_setResponse updateWatches_isEvent _ _ _

theorem setWatches_answers {request : SetWatchesRequest}
    (returns : store.setWatches call request = .returned (after, responses)) :
    call.Answers responses := by
  rw [setWatches_eq] at returns
  split at returns
  · cases returns
    exact call.answers_reply _ _
  · cases returns

theorem processSessionRequest_answers
    (returns : store.processSessionRequest platform call = .returned (after, responses)) :
    call.Answers responses := by
  unfold processSessionRequest at returns
  split at returns
  · cases returns
  · dsimp only at returns
    split at returns
    · cases returns
      exact call.answers_reply _ _
    · exact setWatches_answers returns
    · exact processStoreRequest_answers returns
    · exact processStoreRequest_answers returns

theorem dispatch_answers
    (returns : store.dispatch platform call = .returned (after, responses)) :
    call.Answers responses := by
  unfold dispatch at returns
  split at returns
  · unfold closeSession at returns
    dsimp only at returns
    split at returns
    · cases returns
    · cases returns
      exact Call.answers_setResponse cleanEphemeralNodes_isEvent _ _ _
  · unfold newSession at returns
    split at returns
    · cases returns
    · cases returns
      exact call.answers_reply _ _
  · unfold updateSession at returns
    split at returns
    · cases returns
    · cases returns
      exact call.answers_reply _ _
  all_goals
    split at returns
    · cases returns
      exact ⟨[], [], rfl, by simp, .inl rfl⟩
    · exact processSessionRequest_answers returns

theorem processRequest_answers
    (returns : store.processRequest platform call = .returned (after, responses)) :
    call.Answers responses := by
  unfold processRequest at returns
  split at returns
  · exact dispatch_answers returns
  · split at returns
    · cases returns
    · exact dispatch_answers returns

end KeeperStore

end RaftKeeper
