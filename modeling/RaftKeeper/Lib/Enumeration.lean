import Mathlib.Data.List.Sort
import RaftKeeper.Lib.Finmap

/-!
# Iteration orders of finite sets

An `Enumeration` is an order in which a hash set may be iterated: for every owner and every set it
lists the elements, each exactly once. A result that does not depend on it is proved from
commutativity of the loop body by `foldl_list_eq`.
-/

universe u v w

open List

/-- Some order in which each owner lists the elements of a finite set. -/
structure Enumeration (ι : Type u) (α : Type v) where
  list : ι → Finset α → List α
  coe_list : ∀ owner elements, (list owner elements : Multiset α) = elements.val

namespace Enumeration

variable {ι : Type u} {α : Type v} {β : Type w}

@[simp]
theorem mem_list (order : Enumeration ι α) {owner : ι} {elements : Finset α} {element : α} :
    element ∈ order.list owner elements ↔ element ∈ elements := by
  rw [← Multiset.mem_coe, order.coe_list, Finset.mem_val]

theorem nodup_list (order : Enumeration ι α) (owner : ι) (elements : Finset α) :
    (order.list owner elements).Nodup := by
  rw [← Multiset.coe_nodup, order.coe_list]
  exact elements.nodup

@[simp]
theorem length_list (order : Enumeration ι α) (owner : ι) (elements : Finset α) :
    (order.list owner elements).length = elements.card := by
  rw [← Multiset.coe_card, order.coe_list, Finset.card_val]

@[simp]
theorem list_empty (order : Enumeration ι α) (owner : ι) : order.list owner ∅ = [] := by
  rw [← length_eq_zero_iff, length_list, Finset.card_empty]

/-- The entries of a map whose keys are in `keys`, in iteration order. -/
def entriesOf [DecidableEq α] (order : Enumeration ι α) (owner : ι) (map : Dict α β)
    (keys : Finset α) : List (α × β) :=
  (order.list owner keys).filterMap fun key => (map.lookup key).map (key, ·)

theorem mem_entriesOf [DecidableEq α] (order : Enumeration ι α) {owner : ι} {map : Dict α β}
    {keys : Finset α} {key : α} {value : β} :
    (key, value) ∈ order.entriesOf owner map keys ↔ key ∈ keys ∧ map.lookup key = some value := by
  simp only [entriesOf, mem_filterMap, mem_list, Option.map_eq_some_iff, Prod.mk.injEq]
  constructor
  · rintro ⟨other, isMember, found, present, rfl, rfl⟩
    exact ⟨isMember, present⟩
  · rintro ⟨isMember, present⟩
    exact ⟨key, isMember, value, present, rfl, rfl⟩

theorem keys_entriesOf_sublist [DecidableEq α] (order : Enumeration ι α) (owner : ι)
    (map : Dict α β) (keys : Finset α) :
    ((order.entriesOf owner map keys).map Prod.fst).Sublist (order.list owner keys) := by
  rw [entriesOf]
  induction order.list owner keys with
  | nil => exact Sublist.slnil
  | cons key rest ih =>
    cases found : map.lookup key with
    | none =>
      rw [filterMap_cons_none (by rw [found]; rfl)]
      exact ih.cons key
    | some value =>
      rw [filterMap_cons_some (by rw [found]; rfl), map_cons]
      exact ih.cons_cons key

def entries [DecidableEq α] (order : Enumeration ι α) (owner : ι) (map : Dict α β) :
    List (α × β) := order.entriesOf owner map map.keys

theorem lists_entries [DecidableEq α] (order : Enumeration ι α) (owner : ι) (map : Dict α β) :
    map.Lists (order.entries owner map) where
  nodup := (order.nodup_list owner map.keys).sublist (order.keys_entriesOf_sublist owner map _)
  mem_iff key value := by
    rw [entries, mem_entriesOf, Finmap.mem_keys]
    constructor
    · exact And.right
    · intro found
      exact ⟨Finmap.mem_of_lookup_eq_some found, found⟩

/-- Iteration in increasing order of an injective key. -/
def sortedBy (key : α → ℕ) (injective : Function.Injective key) : Enumeration ι α where
  list _ elements :=
    Quot.lift (insertionSort (key · ≤ key ·))
      (fun left right perm => by
        have sortedPerm := (perm_insertionSort (key · ≤ key ·) left).trans
          (perm.trans (perm_insertionSort (key · ≤ key ·) right).symm)
        refine sortedPerm.eq_of_pairwise ?_ (pairwise_insertionSort _ _)
          (pairwise_insertionSort _ _)
        intro a b _ _ before after
        exact injective (le_antisymm before after))
      elements.val
  coe_list _ elements := by
    rcases elements with ⟨values, nodup⟩
    induction values using Quot.inductionOn with
    | h values => exact Multiset.coe_eq_coe.mpr (perm_insertionSort _ values)

end Enumeration

/-- A sorted list that is walked up to the first element above a bound. -/
theorem List.Pairwise.mem_takeWhile_le {α : Type u} [LinearOrder α] {elements : List α}
    (sorted : elements.Pairwise (· ≤ ·)) {bound element : α} :
    element ∈ elements.takeWhile (· ≤ bound) ↔ element ∈ elements ∧ element ≤ bound := by
  induction elements with
  | nil => simp
  | cons first rest ih =>
    rcases pairwise_cons.mp sorted with ⟨isLeast, sortedRest⟩
    rw [takeWhile_cons]
    split
    next within =>
      rw [mem_cons, ih sortedRest, mem_cons]
      constructor
      · rintro (rfl | ⟨isMember, isWithin⟩)
        · exact ⟨.inl rfl, of_decide_eq_true within⟩
        · exact ⟨.inr isMember, isWithin⟩
      · rintro ⟨rfl | isMember, isWithin⟩
        · exact .inl rfl
        · exact .inr ⟨isMember, isWithin⟩
    next beyond =>
      refine ⟨nofun, fun ⟨isMember, isWithin⟩ => ?_⟩
      have least : first ≤ element := by
        rcases mem_cons.mp isMember with rfl | isLater
        · exact le_rfl
        · exact isLeast element isLater
      exact absurd (decide_eq_true (least.trans isWithin)) beyond
