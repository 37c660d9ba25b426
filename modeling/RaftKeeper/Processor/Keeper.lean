import RaftKeeper.Processor.Transition
import RaftKeeper.Store.Answers

/-!
# The processor with its store

`RequestProcessor::applyRequest` calls `KeeperStore::processRequest`, which pushes its responses
to the queue that the processor pushes its own to. `Keeper` is the processor with the store and
with everything that was pushed to this queue.
-/

namespace RaftKeeper

/-- What becomes of what the processor hands over. An exception is only logged when the request is
a read and ends the process otherwise. -/
def Handed.serve (platform : Platform) (env : Environment) (store : KeeperStore) :
    Handed → Option Answered
  | .nothing => some (store, [])
  | .respond response => some (store, [response])
  | .process request =>
    match store.processRequest platform { request := request, env := env } with
    | .returned answered => some answered
    | .thrown _ after => if request.request.isReadRequest then some (after, []) else none
    | .crashed | .blocked => none

/-- The processor with the store that it applies requests to. -/
structure Keeper where
  history : ProcessorHistory := {}
  store : KeeperStore
  responses : List ResponseForSession := []

namespace Keeper

variable {platform : Platform} {parallel : ℕ} {keeper after : Keeper} {call : ProcessorCall}
  {env : Environment}

open RequestProcessor

def next (platform : Platform) (parallel : ℕ) (keeper : Keeper) :
    ProcessorCall × Environment → Option Keeper
  | (.run surroundings, env) =>
    (keeper.history.processor.step parallel surroundings).bind fun (processor, handed) =>
      (handed.serve platform env keeper.store).map fun (store, answers) =>
        { history := { keeper.history with processor := processor }.hand handed
          store := store
          responses := keeper.responses ++ answers }
  | (call, _) => (keeper.history.next parallel call).map fun history => { keeper with history }

theorem next_run {surroundings : Surroundings}
    (moves : keeper.next platform parallel (.run surroundings, env) = some after) :
    ∃ processor handed store answers,
      Transition parallel surroundings keeper.history.processor processor handed ∧
      handed.serve platform env keeper.store = some (store, answers) ∧
      after =
        { history := { keeper.history with processor := processor }.hand handed
          store := store
          responses := keeper.responses ++ answers } := by
  rcases Option.bind_eq_some_iff.mp moves with ⟨⟨processor, handed⟩, steps, serves⟩
  rcases Option.map_eq_some_iff.mp serves with ⟨⟨store, answers⟩, isServed, rfl⟩
  exact ⟨processor, handed, store, answers, .of_step steps, isServed, rfl⟩

theorem next_call (noRun : ∀ surroundings, call ≠ .run surroundings)
    (moves : keeper.next platform parallel (call, env) = some after) :
    ∃ history, keeper.history.next parallel call = some history ∧
      after = { keeper with history := history } := by
  have calls : (keeper.history.next parallel call).map
      (fun history => { keeper with history := history }) = some after := by
    cases call with
    | run surroundings => exact absurd rfl (noRun surroundings)
    | push request | commit request | onError error => exact moves
  rcases Option.map_eq_some_iff.mp calls with ⟨history, isNext, rfl⟩
  exact ⟨history, isNext, rfl⟩

theorem next_history (moves : keeper.next platform parallel (call, env) = some after) :
    keeper.history.next parallel call = some after.history := by
  by_cases isRun : ∃ surroundings, call = .run surroundings
  · rcases isRun with ⟨surroundings, rfl⟩
    rcases Option.bind_eq_some_iff.mp moves with ⟨⟨processor, handed⟩, steps, serves⟩
    rcases Option.map_eq_some_iff.mp serves with ⟨⟨store, answers⟩, isServed, rfl⟩
    simp [ProcessorHistory.next, steps]
  · rcases next_call (fun surroundings same => isRun ⟨surroundings, same⟩) moves with
      ⟨history, isNext, rfl⟩
    exact isNext

end Keeper

end RaftKeeper
