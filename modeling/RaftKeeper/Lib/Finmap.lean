import Mathlib.Data.Finmap

/-!
# Finite maps

Additions to `Finmap` for maps with a constant value type: the lookup laws as
conditionals, in-place modification of a value, a default for absent keys, and
the number of entries whose value satisfies a predicate.
-/

universe u v

/-- A finite map whose values all have one type. -/
abbrev Dict (κ : Type u) (α : Type v) := Finmap fun _ : κ => α

namespace Finmap

open List

variable {α : Type u} {β : Type v} [DecidableEq α]

theorem lookup_insert_ite (key other : α) (value : β) (map : Dict α β) :
    (map.insert key value).lookup other = if other = key then some value else map.lookup other := by
  by_cases same : other = key
  · subst same
    simp
  · rw [if_neg same, lookup_insert_of_ne map same]

theorem lookup_erase_ite (key other : α) (map : Dict α β) :
    (map.erase key).lookup other = if other = key then none else map.lookup other := by
  by_cases same : other = key
  · subst same
    simp
  · rw [if_neg same, lookup_erase_ne same]

theorem lookup_erase_eq_some {key other : α} {map : Dict α β} {value : β} :
    (map.erase key).lookup other = some value ↔ other ≠ key ∧ map.lookup other = some value := by
  rw [lookup_erase_ite, Option.ite_none_left_eq_some]

theorem lookup_insert_eq_update (key : α) (value : β) (map : Dict α β) :
    (fun other => (map.insert key value).lookup other) =
      Function.update (fun other => map.lookup other) key (some value) := by
  funext other
  rw [lookup_insert_ite, Function.update_apply]

theorem lookup_erase_eq_update (key : α) (map : Dict α β) :
    (fun other => (map.erase key).lookup other) =
      Function.update (fun other => map.lookup other) key none := by
  funext other
  rw [lookup_erase_ite, Function.update_apply]

def modify (key : α) (update : β → β) (map : Dict α β) : Dict α β :=
  match map.lookup key with
  | some value => map.insert key (update value)
  | none => map

theorem lookup_modify (key other : α) (update : β → β) (map : Dict α β) :
    (map.modify key update).lookup other =
      if other = key then (map.lookup key).map update else map.lookup other := by
  unfold modify
  cases found : map.lookup key with
  | none =>
    by_cases same : other = key
    · subst same
      simp [found]
    · simp [same]
  | some value => rw [lookup_insert_ite]; rfl

variable {key other : α} {update : β → β} {map : Dict α β} {value : β} {predicate : β → Bool}
  {entries : List (α × β)}

theorem modify_of_lookup (found : map.lookup key = some value) :
    map.modify key update = map.insert key (update value) := by
  simp [modify, found]

theorem modify_of_absent (absent : map.lookup key = none) : map.modify key update = map := by
  simp [modify, absent]

@[simp]
theorem modify_id (key : α) (map : Dict α β) : map.modify key id = map := by
  apply ext_lookup
  intro other
  rw [lookup_modify]
  split
  · rename_i same
    rw [same, Option.map_id, id]
  · rfl

theorem modify_insert_of_ne (ne : key ≠ other) (update : β → β) (value : β) (map : Dict α β) :
    (map.insert other value).modify key update = (map.modify key update).insert other value := by
  apply ext_lookup
  intro third
  simp only [lookup_modify, lookup_insert_ite, if_neg ne]
  by_cases isOther : third = other
  · simp [isOther, ne.symm]
  · simp [isOther]

theorem mem_modify : other ∈ map.modify key update ↔ other ∈ map := by
  rw [← lookup_isSome, ← lookup_isSome, lookup_modify]
  split
  · rename_i same
    subst same
    simp
  · rfl

def rename (key other : α) (map : Dict α β) : Dict α β :=
  match map.lookup key with
  | some value => (map.erase key).insert other value
  | none => map

theorem lookup_rename (found : map.lookup key = some value) (third : α) :
    (map.rename key other).lookup third =
      if third = other then some value else if third = key then none else map.lookup third := by
  simp only [rename, found, lookup_insert_ite, lookup_erase_ite]

theorem mem_rename (found : map.lookup key = some value) {third : α} :
    third ∈ map.rename key other ↔ third = other ∨ (third ≠ key ∧ third ∈ map) := by
  rw [← lookup_isSome, lookup_rename found, ← lookup_isSome]
  by_cases isOther : third = other
  · simp [isOther]
  · by_cases isKey : third = key
    · simp [isKey]
    · simp [isOther, isKey]

def count (predicate : β → Bool) (map : Dict α β) : ℕ :=
  (map.keys.filter fun key => (map.lookup key).any predicate).card

theorem count_pos_of_lookup (found : map.lookup key = some value) (holds : predicate value) :
    0 < map.count predicate := by
  apply Finset.card_pos.mpr
  refine ⟨key, Finset.mem_filter.mpr ⟨mem_keys.mpr (mem_of_lookup_eq_some found), ?_⟩⟩
  simp [found, holds]

theorem count_eq_zero (fails : ∀ key value, map.lookup key = some value → predicate value = false) :
    map.count predicate = 0 := by
  refine Finset.card_eq_zero.mpr (Finset.filter_eq_empty_iff.mpr fun key _ => ?_)
  cases found : map.lookup key with
  | none => simp
  | some value => simp [fails key value found]

theorem count_erase (found : map.lookup key = some value) :
    (map.erase key).count predicate + (predicate value).toNat = map.count predicate := by
  have filtered : ((map.erase key).keys.filter fun other =>
      ((map.erase key).lookup other).any predicate) =
        (map.keys.filter fun other => (map.lookup other).any predicate).erase key := by
    ext other
    simp only [keys_erase, Finset.mem_filter, Finset.mem_erase, lookup_erase_ite]
    constructor
    · rintro ⟨⟨distinct, present⟩, holds⟩
      rw [if_neg distinct] at holds
      exact ⟨distinct, present, holds⟩
    · rintro ⟨distinct, present, holds⟩
      rw [if_neg distinct]
      exact ⟨⟨distinct, present⟩, holds⟩
  unfold count
  rw [filtered]
  cases holds : predicate value with
  | false =>
    rw [Finset.erase_eq_of_notMem (by simp [found, holds])]
    simp
  | true =>
    have counted : key ∈ map.keys.filter fun other => (map.lookup other).any predicate := by
      refine Finset.mem_filter.mpr ⟨mem_keys.mpr (mem_of_lookup_eq_some found), ?_⟩
      simp [found, holds]
    rw [Bool.toNat_true, Finset.card_erase_add_one counted]

theorem erase_of_absent (absent : map.lookup key = none) : map.erase key = map := by
  apply ext_lookup
  intro other
  rw [lookup_erase_ite]
  split
  · rename_i same
    rw [same, absent]
  · rfl

theorem count_erase_le (predicate : β → Bool) (map : Dict α β) (key : α) :
    (map.erase key).count predicate ≤ map.count predicate := by
  cases found : map.lookup key with
  | none => rw [erase_of_absent found]
  | some value =>
    rw [← count_erase found]
    omega

theorem erase_insert_self (key : α) (value : β) (map : Dict α β) :
    (map.insert key value).erase key = map.erase key := by
  apply ext_lookup
  intro other
  simp only [lookup_erase_ite, lookup_insert_ite]
  split <;> rfl

theorem erase_modify (key other : α) (update : β → β) (map : Dict α β) :
    (map.modify key update).erase other = (map.erase other).modify key update := by
  apply ext_lookup
  intro third
  simp only [lookup_modify, lookup_erase_ite]
  by_cases isKey : third = key
  · simp only [isKey, if_true]
    split <;> rfl
  · rw [if_neg isKey, if_neg isKey]

theorem modify_erase_self (key : α) (update : β → β) (map : Dict α β) :
    (map.erase key).modify key update = map.erase key := by
  simp [modify]

theorem insert_erase_of_lookup (found : map.lookup key = some value) :
    (map.erase key).insert key value = map := by
  apply ext_lookup
  intro other
  rw [lookup_insert_ite, lookup_erase_ite]
  split
  next same => rw [same, found]
  next => rfl

theorem insert_erase_self (key : α) (value : β) (map : Dict α β) :
    (map.erase key).insert key value = map.insert key value := by
  apply ext_lookup
  intro other
  rw [lookup_insert_ite, lookup_insert_ite, lookup_erase_ite]
  split <;> rfl

theorem count_insert (predicate : β → Bool) (map : Dict α β) (key : α) (value : β) :
    (map.insert key value).count predicate =
      (map.erase key).count predicate + (predicate value).toNat := by
  have found : (map.insert key value).lookup key = some value := lookup_insert map
  rw [← erase_insert_self key value, count_erase found]

theorem count_replace {old new : β} (found : map.lookup key = some old)
    (same : predicate new = predicate old) :
    (map.insert key new).count predicate = map.count predicate := by
  rw [count_insert, same, count_erase found]

theorem count_modify (same : ∀ value, predicate (update value) = predicate value) (key : α)
    (map : Dict α β) :
    (map.modify key update).count predicate = map.count predicate := by
  cases found : map.lookup key with
  | none => simp [modify, found]
  | some value => rw [modify_of_lookup found, count_replace found (same value)]

def Everywhere (property : α → β → Prop) (map : Dict α β) : Prop :=
  ∀ key value, map.lookup key = some value → property key value

namespace Everywhere

variable {property : α → β → Prop} {map : Dict α β} {key : α}

theorem insert (holds : Everywhere property map) {value : β} (isNew : property key value) :
    Everywhere property (map.insert key value) := by
  intro other otherValue found
  rw [lookup_insert_ite] at found
  split at found
  next same =>
    cases found
    rw [same]
    exact isNew
  next => exact holds other otherValue found

theorem erase (holds : Everywhere property map) (key : α) :
    Everywhere property (map.erase key) := by
  intro other value found
  exact holds other value (lookup_erase_eq_some.mp found).2

theorem modify (holds : Everywhere property map) (key : α) {update : β → β}
    (kept : ∀ value, property key value → property key (update value)) :
    Everywhere property (map.modify key update) := by
  cases found : map.lookup key with
  | none => rwa [modify_of_absent found]
  | some value =>
    rw [modify_of_lookup found]
    exact holds.insert (kept value (holds key value found))

end Everywhere

theorem forall_lookup_iff {property : α → β → Prop} :
    (∀ key value, map.lookup key = some value → property key value) ↔
      ∀ key ∈ map.keys, ∀ value ∈ map.lookup key, property key value := by
  constructor
  · intro all key _ value found
    exact all key value found
  · intro all key value found
    exact all key (mem_keys.mpr (mem_of_lookup_eq_some found)) value found

/-- What is said of every entry of a finite map can be tested. -/
instance decidableForallLookup {map : Dict α β} {property : α → β → Prop}
    [∀ key value, Decidable (property key value)] :
    Decidable (∀ key value, map.lookup key = some value → property key value) :=
  decidable_of_iff _ forall_lookup_iff.symm

/-- A list of the entries of a map, each exactly once. -/
structure Lists (map : Dict α β) (entries : List (α × β)) : Prop where
  nodup : (entries.map Prod.fst).Nodup
  mem_iff : ∀ key value, (key, value) ∈ entries ↔ map.lookup key = some value

theorem Lists.mem_keys_iff (lists : map.Lists entries) (key : α) :
    key ∈ entries.map Prod.fst ↔ key ∈ map := by
  rw [mem_map, ← lookup_isSome, Option.isSome_iff_exists]
  constructor
  · rintro ⟨entry, isMember, rfl⟩
    exact ⟨entry.2, (lists.mem_iff _ _).mp isMember⟩
  · rintro ⟨value, found⟩
    exact ⟨(key, value), (lists.mem_iff _ _).mpr found, rfl⟩

theorem Lists.length_eq (lists : map.Lists entries) : entries.length = map.keys.card := by
  rw [← length_map Prod.fst, ← toFinset_card_of_nodup lists.nodup]
  congr 1
  ext key
  rw [mem_toFinset, lists.mem_keys_iff, mem_keys]

def insertAll (map : Dict α β) (entries : List (α × β)) : Dict α β :=
  entries.foldl (fun current entry => current.insert entry.1 entry.2) map

theorem insertAll_cons (map : Dict α β) (entry : α × β) (entries : List (α × β)) :
    map.insertAll (entry :: entries) = (map.insert entry.1 entry.2).insertAll entries := rfl

theorem lookup_insertAll_of_notMem (absent : key ∉ entries.map Prod.fst) :
    (map.insertAll entries).lookup key = map.lookup key := by
  induction entries generalizing map with
  | nil => rfl
  | cons entry rest ih =>
    simp only [map_cons, mem_cons, not_or] at absent
    rw [insertAll_cons, ih absent.2, lookup_insert_ite, if_neg absent.1]

theorem lookup_insertAll_of_mem {map : Dict α β} {entries : List (α × β)} {key : α}
    (present : key ∈ entries.map Prod.fst) :
    ∃ value, (key, value) ∈ entries ∧ (map.insertAll entries).lookup key = some value := by
  induction entries generalizing map with
  | nil => simp at present
  | cons entry rest ih =>
    rw [insertAll_cons]
    by_cases later : key ∈ rest.map Prod.fst
    · rcases @ih (map.insert entry.1 entry.2) later with ⟨value, isMember, found⟩
      exact ⟨value, mem_cons_of_mem _ isMember, found⟩
    · have isFirst : key = entry.1 := by simpa [later] using present
      refine ⟨entry.2, by simp [isFirst], ?_⟩
      rw [lookup_insertAll_of_notMem later, lookup_insert_ite, if_pos isFirst]

theorem Lists.lookup_insertAll (lists : map.Lists entries) (start : Dict α β) (key : α) :
    (start.insertAll entries).lookup key = (map.lookup key).or (start.lookup key) := by
  by_cases present : key ∈ entries.map Prod.fst
  · rcases @lookup_insertAll_of_mem _ _ _ start _ _ present with ⟨value, isMember, found⟩
    rw [found, (lists.mem_iff key value).mp isMember]
    rfl
  · have absent : map.lookup key = none := by
      rw [lists.mem_keys_iff] at present
      exact lookup_eq_none.mpr present
    rw [lookup_insertAll_of_notMem present, absent]
    rfl

theorem Lists.insertAll_empty (lists : map.Lists entries) :
    (∅ : Dict α β).insertAll entries = map := by
  apply ext_lookup
  intro key
  rw [lists.lookup_insertAll, lookup_empty, Option.or_none]

theorem Lists.mapValues {γ : Type v} (lists : map.Lists entries) (change : β → γ) :
    ∃ changed : Dict α γ, changed.Lists (entries.map fun entry => (entry.1, change entry.2)) ∧
      ∀ key, changed.lookup key = (map.lookup key).map change := by
  have keys : (entries.map fun entry => (entry.1, change entry.2)).map Prod.fst =
      entries.map Prod.fst := by
    rw [map_map]
    rfl
  have lookups : ∀ key, ((∅ : Dict α γ).insertAll
      (entries.map fun entry => (entry.1, change entry.2))).lookup key =
        (map.lookup key).map change := by
    intro key
    by_cases present : key ∈ entries.map Prod.fst
    · have presentChanged := present
      rw [← keys] at presentChanged
      rcases @lookup_insertAll_of_mem _ _ _ ∅ _ _ presentChanged with ⟨value, isMember, found⟩
      rcases mem_map.mp isMember with ⟨entry, isEntry, same⟩
      cases same
      rw [found, (lists.mem_iff entry.1 entry.2).mp isEntry]
      rfl
    · have absent : map.lookup key = none := by
        rw [lists.mem_keys_iff] at present
        exact lookup_eq_none.mpr present
      rw [lookup_insertAll_of_notMem (keys ▸ present), absent, lookup_empty]
      rfl
  refine ⟨_, ⟨keys ▸ lists.nodup, fun key value => ?_⟩, lookups⟩
  rw [lookups, Option.map_eq_some_iff, mem_map]
  constructor
  · rintro ⟨entry, isEntry, same⟩
    cases same
    exact ⟨entry.2, (lists.mem_iff _ _).mp isEntry, rfl⟩
  · rintro ⟨old, found, rfl⟩
    exact ⟨(key, old), (lists.mem_iff _ _).mpr found, rfl⟩

end Finmap
