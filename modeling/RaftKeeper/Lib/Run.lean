import Mathlib.Order.Basic

/-!
# Runs of a deterministic transition function

`next state input` is the state after one step, or `none` when the step does not return.
`ReachableBy` restricts a run to steps that satisfy a condition on the state they are taken in and
their input; `runFrom` and `runMeets` decide the same for a list of inputs.
-/

universe u v

variable {σ : Type u} {ι : Type v}

/-- The states reached from `start` by steps that satisfy `allowed`. -/
inductive ReachableBy (next : σ → ι → Option σ) (allowed : σ → ι → Prop) (start : σ) : σ → Prop
  | start : ReachableBy next allowed start start
  | step {before after : σ} {input : ι} (reached : ReachableBy next allowed start before)
      (meets : allowed before input) (moves : next before input = some after) :
      ReachableBy next allowed start after

/-- The state after a list of inputs, if every step returns. -/
def runFrom (next : σ → ι → Option σ) : σ → List ι → Option σ
  | state, [] => some state
  | state, input :: rest =>
    match next state input with
    | some after => runFrom next after rest
    | none => none

theorem runFrom_append (next : σ → ι → Option σ) (state : σ) (first second : List ι) :
    runFrom next state (first ++ second) =
      (runFrom next state first).bind fun middle => runFrom next middle second := by
  induction first generalizing state with
  | nil => rfl
  | cons input rest ih =>
    simp only [List.cons_append, runFrom]
    cases next state input with
    | none => rfl
    | some after => exact ih after

def runMeets (next : σ → ι → Option σ) (allowed : σ → ι → Prop) : σ → List ι → Prop
  | _, [] => True
  | state, input :: rest =>
    allowed state input ∧ match next state input with
      | some after => runMeets next allowed after rest
      | none => True

instance runMeets.decidable {next : σ → ι → Option σ} {allowed : σ → ι → Prop}
    [∀ state input, Decidable (allowed state input)] :
    (state : σ) → (inputs : List ι) → Decidable (runMeets next allowed state inputs)
  | _, [] => .isTrue trivial
  | state, input :: rest =>
    match moves : next state input with
    | some after =>
      have := @runMeets.decidable next allowed _ after rest
      decidable_of_iff (allowed state input ∧ runMeets next allowed after rest)
        (by simp [runMeets, moves])
    | none => decidable_of_iff (allowed state input) (by simp [runMeets, moves])

namespace ReachableBy

variable {next : σ → ι → Option σ} {allowed stricter : σ → ι → Prop} {start : σ} {state : σ}

/-- The invariant rule: what holds at the start and is kept by every allowed step
holds throughout. -/
theorem invariant (property : σ → Prop) (initially : property start)
    (kept : ∀ {before after input}, property before → allowed before input →
      next before input = some after → property after)
    (reached : ReachableBy next allowed start state) : property state := by
  induction reached with
  | start => exact initially
  | step _ meets moves ih => exact kept ih meets moves

theorem mono (weaker : ∀ state input, stricter state input → allowed state input)
    (reached : ReachableBy next stricter start state) : ReachableBy next allowed start state := by
  induction reached with
  | start => exact .start
  | step _ meets moves ih => exact ih.step (weaker _ _ meets) moves

theorem trans {middle last : σ} (first : ReachableBy next allowed start middle)
    (second : ReachableBy next allowed middle last) : ReachableBy next allowed start last := by
  induction second with
  | start => exact first
  | step _ meets moves ih => exact ih.step meets moves

theorem of_run {inputs : List ι} {last : σ} (reached : ReachableBy next allowed start state)
    (meets : runMeets next allowed state inputs) (runs : runFrom next state inputs = some last) :
    ReachableBy next allowed start last := by
  induction inputs generalizing state with
  | nil =>
    cases runs
    exact reached
  | cons input rest ih =>
    rw [runMeets] at meets
    rw [runFrom] at runs
    cases moves : next state input with
    | none => simp [moves] at runs
    | some after =>
      simp only [moves] at meets runs
      exact ih (reached.step meets.1 moves) meets.2 runs

end ReachableBy

section

variable {next : σ → ι → Option σ} {allowed : σ → ι → Prop} {start : σ}

/-- To get to a state of some kind, run on some inputs and see what holds there. -/
theorem exists_reached_of (property : σ → Prop) {conclusion : σ → Prop} (inputs : List ι)
    (runs : runMeets next allowed start inputs ∧
      ∃ last, runFrom next start inputs = some last ∧ property last)
    (implies : ∀ {state}, ReachableBy next allowed start state → property state →
      conclusion state) :
    ∃ state, ReachableBy next allowed start state ∧ conclusion state := by
  rcases runs with ⟨meets, last, runs, holds⟩
  have reached := ReachableBy.of_run .start meets runs
  exact ⟨last, reached, implies reached holds⟩

theorem exists_reached {property : σ → Prop} (inputs : List ι)
    (runs : runMeets next allowed start inputs ∧
      ∃ last, runFrom next start inputs = some last ∧ property last) :
    ∃ state, ReachableBy next allowed start state ∧ property state :=
  exists_reached_of property inputs runs fun _ => id

end

theorem runMeets_of_forall_mem {next : σ → ι → Option σ} {allowed : σ → ι → Prop} {inputs : List ι}
    (always : ∀ input ∈ inputs, ∀ state, allowed state input) (state : σ) :
    runMeets next allowed state inputs := by
  induction inputs generalizing state with
  | nil => trivial
  | cons input rest ih =>
    rw [runMeets]
    refine ⟨always input List.mem_cons_self state, ?_⟩
    split
    · exact ih (fun other isMember => always other (List.mem_cons_of_mem _ isMember)) _
    · trivial

theorem runFrom_simulates {τ : Type u} {κ : Type v} {next : σ → ι → Option σ}
    {specNext : τ → κ → Option τ} {allowed : σ → ι → Prop} (view : σ → τ) (label : ι → Option κ)
    (hidden : ∀ {before after input}, allowed before input → label input = none →
      next before input = some after → view after = view before)
    (visible : ∀ {before after input entry}, allowed before input → label input = some entry →
      next before input = some after → specNext (view before) entry = some (view after))
    {inputs : List ι} {start last : σ} (meets : runMeets next allowed start inputs)
    (runs : runFrom next start inputs = some last) :
    runFrom specNext (view start) (inputs.filterMap label) = some (view last) := by
  induction inputs generalizing start with
  | nil =>
    cases runs
    rfl
  | cons input rest ih =>
    rw [runMeets] at meets
    rw [runFrom] at runs
    cases moves : next start input with
    | none => simp [moves] at runs
    | some after =>
      simp only [moves] at meets runs
      have continues := ih meets.2 runs
      cases isLabel : label input with
      | none =>
        rw [List.filterMap_cons_none isLabel, ← hidden meets.1 isLabel moves]
        exact continues
      | some entry =>
        rw [List.filterMap_cons_some isLabel, runFrom, visible meets.1 isLabel moves]
        exact continues
