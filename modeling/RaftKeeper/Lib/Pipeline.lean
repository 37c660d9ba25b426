import Mathlib.Algebra.Order.BigOperators.Group.Finset

/-!
# Queues one behind the other

Items move from the head of one queue to the end of another. A route is a chain of queues and says
which of the items are its own. If these move along the chain only, what is in the chain, read from
its last queue to its first, is a queue, too.
-/

universe u v w

open Function List

variable {κ : Type u} {α : Type v} {β : Type w} [DecidableEq κ]

/-- The queues that the items of one kind pass through. -/
structure Route (κ : Type u) (α : Type v) (β : Type w) where
  /-- The queues, the last one first. -/
  chain : List κ
  nodup : chain.Nodup
  /-- What an item in a queue stands for, if it is on this route. -/
  view : κ → α → Option β

def moveHead (queues : κ → List α) (source target : κ) (rest : List α) (item : α) : κ → List α :=
  let taken := update queues source rest
  update taken target (taken target ++ [item])

namespace Route

variable {route : Route κ α β} {queues : κ → List α} {place source target : κ}
  {items rest : List α} {item moved : α}

def contentOf (route : Route κ α β) (queues : κ → List α) (places : List κ) : List β :=
  places.flatMap fun place => (queues place).filterMap (route.view place)

/-- What is on the route, the oldest first. -/
def content (route : Route κ α β) (queues : κ → List α) : List β :=
  route.contentOf queues route.chain

omit [DecidableEq κ] in
theorem contentOf_append (first second : List κ) :
    route.contentOf queues (first ++ second) =
      route.contentOf queues first ++ route.contentOf queues second :=
  flatMap_append

omit [DecidableEq κ] in
theorem contentOf_cons (first : κ) (others : List κ) :
    route.contentOf queues (first :: others) =
      (queues first).filterMap (route.view first) ++ route.contentOf queues others :=
  flatMap_cons

theorem contentOf_update_of_notMem {places : List κ} (outside : place ∉ places) :
    route.contentOf (update queues place items) places = route.contentOf queues places := by
  refine flatMap_congr ?_
  intro other isMember
  have isOther : other ≠ place := by
    rintro rfl
    exact outside isMember
  rw [update_of_ne isOther]

theorem contentOf_update_of_same {places : List κ}
    (same : items.filterMap (route.view place) = (queues place).filterMap (route.view place)) :
    route.contentOf (update queues place items) places = route.contentOf queues places := by
  refine flatMap_congr ?_
  intro other _
  by_cases isPlace : other = place
  · subst isPlace
    rw [update_self, same]
  · rw [update_of_ne isPlace]

theorem content_push {front : List κ} (isChain : route.chain = front ++ [place]) :
    route.content (update queues place (queues place ++ [item])) =
      route.content queues ++ (route.view place item).toList := by
  have outside : place ∉ front := by
    have nodup := route.nodup
    rw [isChain, nodup_append] at nodup
    intro isMember
    exact nodup.2.2 place isMember place (mem_singleton_self place) rfl
  rw [content, content, isChain, contentOf_append, contentOf_append,
    contentOf_update_of_notMem outside, contentOf_cons, contentOf_cons, update_self]
  cases isView : route.view place item <;>
    simp [contentOf, filterMap_append, isView]

theorem content_push_other (foreign : route.view place item = none) :
    route.content (update queues place (queues place ++ [item])) = route.content queues := by
  refine contentOf_update_of_same ?_
  simp [filterMap_append, foreign]

theorem content_take {back : List κ} (isChain : route.chain = place :: back) :
    route.content queues =
      (queues place).filterMap (route.view place) ++ route.content (update queues place []) := by
  have outside : place ∉ back := by
    have nodup := route.nodup
    rw [isChain] at nodup
    exact (nodup_cons.mp nodup).1
  rw [content, content, isChain, contentOf_cons, contentOf_cons,
    contentOf_update_of_notMem outside, update_self]
  simp

theorem content_drop_other (isHead : queues source = item :: rest)
    (foreign : route.view source item = none) :
    route.content (update queues source rest) = route.content queues := by
  refine contentOf_update_of_same ?_
  simp [isHead, foreign]

theorem content_move (isHead : queues source = item :: rest)
    (sameView : route.view target moved = route.view source item)
    (along : route.view source item ≠ none →
      ∃ front back, route.chain = front ++ target :: source :: back) :
    route.content (moveHead queues source target rest moved) = route.content queues := by
  cases isView : route.view source item with
  | none =>
    rw [moveHead, content_push_other (sameView.trans isView), content_drop_other isHead isView]
  | some value =>
    rcases along (by simp [isView]) with ⟨front, back, isChain⟩
    have nodup := route.nodup
    rw [isChain, nodup_append, nodup_cons, nodup_cons] at nodup
    rcases nodup with ⟨_, ⟨targetOutside, sourceOutside, _⟩, apart⟩
    have isOther : source ≠ target := by
      rintro rfl
      exact targetOutside mem_cons_self
    have targetBack : target ∉ back := fun isMember =>
      targetOutside (mem_cons_of_mem _ isMember)
    have targetFront : target ∉ front := fun isMember =>
      apart target isMember target mem_cons_self rfl
    have sourceFront : source ∉ front := fun isMember =>
      apart source isMember source (mem_cons_of_mem _ mem_cons_self) rfl
    have movedView : route.view target moved = some value := sameView.trans isView
    rw [moveHead, content, content, isChain, contentOf_append, contentOf_append,
      contentOf_update_of_notMem targetFront, contentOf_update_of_notMem sourceFront,
      contentOf_cons, contentOf_cons, contentOf_cons, contentOf_cons,
      contentOf_update_of_notMem targetBack, contentOf_update_of_notMem sourceOutside,
      update_self, update_of_ne isOther, update_self,
      update_of_ne isOther.symm, isHead, filterMap_append]
    simp [isView, movedView]

end Route

section

variable {queues : κ → List α} {place source target : κ} {items rest : List α} {item moved : α}
  {holds : κ → α → Prop} (held : ∀ place, ∀ item ∈ queues place, holds place item)

include held

theorem held_update (ok : ∀ item ∈ items, holds place item) :
    ∀ other, ∀ item ∈ update queues place items other, holds other item := by
  intro other item isMember
  by_cases isPlace : other = place
  · subst isPlace
    rw [update_self] at isMember
    exact ok item isMember
  · rw [update_of_ne isPlace] at isMember
    exact held other item isMember

theorem held_push (ok : holds place item) :
    ∀ other, ∀ member ∈ update queues place (queues place ++ [item]) other, holds other member := by
  refine held_update held ?_
  intro member isMember
  rcases mem_append.mp isMember with isOld | isNew
  · exact held place member isOld
  · rw [mem_singleton.mp isNew]
    exact ok

theorem held_drop (isHead : queues source = item :: rest) :
    ∀ other, ∀ member ∈ update queues source rest other, holds other member := by
  refine held_update held ?_
  intro member isMember
  exact held source member (isHead ▸ mem_cons_of_mem _ isMember)

theorem held_move (isHead : queues source = item :: rest) (ok : holds target moved) :
    ∀ other, ∀ member ∈ moveHead queues source target rest moved other, holds other member :=
  held_push (held_drop held isHead) ok

end

section

variable {queues : κ → List α} {place source target : κ} {items rest : List α} {item moved : α}
  {places : Finset κ} {weight : κ → ℕ}

/-- The steps that are left, if an item in a queue has as many to go as the queue weighs. -/
def load (places : Finset κ) (weight : κ → ℕ) (queues : κ → List α) : ℕ :=
  ∑ place ∈ places, weight place * (queues place).length

theorem load_update (isPlace : place ∈ places) :
    load places weight (update queues place items) + weight place * (queues place).length =
      load places weight queues + weight place * items.length := by
  rw [load, load, ← Finset.add_sum_erase _ _ isPlace, ← Finset.add_sum_erase _ _ isPlace,
    update_self]
  have same : ∑ other ∈ places.erase place,
        weight other * (update queues place items other).length =
      ∑ other ∈ places.erase place, weight other * (queues other).length := by
    refine Finset.sum_congr rfl ?_
    intro other isOther
    rw [update_of_ne (Finset.ne_of_mem_erase isOther)]
  rw [same]
  omega

theorem load_drop (isPlace : source ∈ places) (isHead : queues source = item :: rest)
    (heavy : 0 < weight source) :
    load places weight (update queues source rest) < load places weight queues := by
  have change := @load_update _ _ _ queues source rest places weight isPlace
  rw [isHead, length_cons, Nat.mul_add, Nat.mul_one] at change
  omega

theorem load_move (isSource : source ∈ places) (isTarget : target ∈ places)
    (isHead : queues source = item :: rest) (lighter : weight target < weight source) :
    load places weight (moveHead queues source target rest moved) < load places weight queues := by
  have taken := @load_update _ _ _ queues source rest places weight isSource
  have put := @load_update _ _ _ (update queues source rest) target
    (update queues source rest target ++ [moved]) places weight isTarget
  rw [isHead, length_cons, Nat.mul_add, Nat.mul_one] at taken
  rw [length_append, length_singleton, Nat.mul_add, Nat.mul_one] at put
  rw [moveHead]
  omega

end
