import RaftKeeper.Lib.Finmap

/-!
# Related maps

Two finite maps are related when they have the same keys and the values of each key are
related. The operations on maps keep the relation, so two runs of one program on related
maps can be compared operation by operation. An operation on the first map can be undone on
the second one.
-/

universe u v

namespace Finmap

variable {α : Type u} {β : Type v} [DecidableEq α] {relation : α → β → β → Prop}
  {map other : Dict α β}

/-- The same keys, with related values. -/
def Related (relation : α → β → β → Prop) (map other : Dict α β) : Prop :=
  ∀ key, Option.Rel (relation key) (map.lookup key) (other.lookup key)

namespace Related

theorem refl (reflexive : ∀ key value, relation key value value) (map : Dict α β) :
    Related relation map map := by
  intro key
  cases map.lookup key with
  | none => exact .none
  | some value => exact .some (reflexive key value)

section

variable (related : Related relation map other)

include related

variable {key : α}

theorem lookup_none (absent : map.lookup key = none) : other.lookup key = none := by
  have values := related key
  rw [absent] at values
  cases found : other.lookup key with
  | none => rfl
  | some value =>
    rw [found] at values
    cases values

theorem lookup_some {value : β} (found : map.lookup key = some value) :
    ∃ twin, other.lookup key = some twin ∧ relation key value twin := by
  have values := related key
  rw [found] at values
  cases foundOther : other.lookup key with
  | none =>
    rw [foundOther] at values
    cases values
  | some twin =>
    rw [foundOther] at values
    cases values with
    | some holds => exact ⟨twin, rfl, holds⟩

theorem lookup_twin {twin : β} (found : other.lookup key = some twin) :
    ∃ value, map.lookup key = some value ∧ relation key value twin := by
  cases foundValue : map.lookup key with
  | none =>
    rw [related.lookup_none foundValue] at found
    cases found
  | some value =>
    rcases related.lookup_some foundValue with ⟨_, foundTwin, holds⟩
    rw [found] at foundTwin
    cases foundTwin
    exact ⟨value, rfl, holds⟩

theorem isSome_eq (key : α) : (other.lookup key).isSome = (map.lookup key).isSome := by
  cases found : map.lookup key with
  | none => rw [related.lookup_none found]
  | some value =>
    rcases related.lookup_some found with ⟨twin, foundTwin, _⟩
    rw [foundTwin]
    rfl

theorem mem_iff : key ∈ other ↔ key ∈ map := by
  rw [← lookup_isSome, ← lookup_isSome, related.isSome_eq]

theorem insert {value twin : β} (holds : relation key value twin) :
    Related relation (map.insert key value) (other.insert key twin) := by
  intro third
  simp only [lookup_insert_ite]
  split
  · rename_i same
    rw [same]
    exact .some holds
  · exact related third

theorem erase (key : α) : Related relation (map.erase key) (other.erase key) := by
  intro third
  simp only [lookup_erase_ite]
  split
  · exact .none
  · exact related third

theorem modify {key : α} {update : β → β}
    (kept : ∀ value twin, relation key value twin → relation key (update value) (update twin)) :
    Related relation (map.modify key update) (other.modify key update) := by
  intro third
  simp only [lookup_modify]
  split
  · rename_i same
    rw [same]
    cases found : map.lookup key with
    | none =>
      rw [related.lookup_none found]
      exact .none
    | some value =>
      rcases related.lookup_some found with ⟨twin, foundTwin, holds⟩
      rw [foundTwin]
      exact .some (kept value twin holds)
  · exact related third

end

theorem replace (reflexive : ∀ key value, relation key value value) {key : α} {value twin : β}
    (found : map.lookup key = some value) (holds : relation key value twin) :
    Related relation map (map.insert key twin) := by
  have replaced := (refl reflexive (map.erase key)).insert holds
  rwa [insert_erase_of_lookup found, insert_erase_self] at replaced

theorem change (reflexive : ∀ key value, relation key value value) {key : α} {update : β → β}
    (holds : ∀ value, map.lookup key = some value → relation key value (update value)) :
    Related relation map (map.modify key update) := by
  cases found : map.lookup key with
  | none =>
    rw [modify_of_absent found]
    exact refl reflexive map
  | some value =>
    rw [modify_of_lookup found]
    exact replace reflexive found (holds value found)

theorem iff_map_eq {γ : Type*} {view : β → γ} :
    Related (fun _ value twin => view twin = view value) map other ↔
      ∀ key, (other.lookup key).map view = (map.lookup key).map view := by
  refine forall_congr' fun key => ?_
  cases map.lookup key <;> cases other.lookup key <;> simp

theorem iff_lookup_eq {change : α → β → β} :
    Related (fun key value twin => twin = change key value) map other ↔
      ∀ key, other.lookup key = (map.lookup key).map (change key) := by
  refine forall_congr' fun key => ?_
  cases map.lookup key <;> cases other.lookup key <;> simp

section

variable {key above : α} {value : β} {gain lose : β → β}

theorem undo_modify (related : Related relation (map.modify key gain) other)
    (undone : ∀ {old new}, map.lookup key = some old → relation key (gain old) new →
      relation key old (lose new)) :
    Related relation map (other.modify key lose) := by
  intro third
  rw [lookup_modify]
  split
  next isKey =>
    rw [isKey]
    cases found : map.lookup key with
    | none =>
      rw [related.lookup_none (by rw [lookup_modify, if_pos rfl, found]; rfl)]
      exact .none
    | some old =>
      rcases related.lookup_some (by rw [lookup_modify, if_pos rfl, found]; rfl) with
        ⟨new, foundNew, holds⟩
      rw [foundNew]
      exact .some (undone found holds)
  next isOther =>
    have known := related third
    rwa [lookup_modify, if_neg isOther] at known

theorem undo_insert (related : Related relation ((map.modify above gain).insert key value) other)
    (absent : map.lookup key = none)
    (undone : ∀ {old new}, map.lookup above = some old → relation above (gain old) new →
      relation above old (lose new)) :
    Related relation map ((other.erase key).modify above lose) := by
  have removed := related.erase key
  rw [erase_insert_self, erase_modify, erase_of_absent absent] at removed
  exact removed.undo_modify undone

theorem undo_replace {updated : β} (related : Related relation (map.insert key updated) other)
    (found : map.lookup key = some value) (own : relation key value value) :
    Related relation map (other.insert key value) := by
  intro third
  have known := related third
  rw [lookup_insert_ite] at known ⊢
  split
  next isKey =>
    rw [isKey, found]
    exact .some own
  next isOther => rwa [if_neg isOther] at known

theorem undo_erase (related : Related relation ((map.modify above lose).erase key) other)
    (found : map.lookup key = some value) (own : above ≠ key → relation key value value)
    (ownAbove : above = key → relation key value (gain value))
    (undone : above ≠ key → ∀ {old new}, map.lookup above = some old →
      relation above (lose old) new → relation above old (gain new)) :
    Related relation map ((other.insert key value).modify above gain) := by
  rw [erase_modify] at related
  by_cases isOwn : above = key
  · have added := related.insert (ownAbove isOwn)
    rw [isOwn, modify_erase_self, insert_erase_of_lookup found] at added
    rwa [isOwn, modify_of_lookup (lookup_insert _), insert_insert]
  · have added := related.insert (own isOwn)
    rw [← modify_insert_of_ne isOwn, insert_erase_of_lookup found] at added
    exact added.undo_modify (undone isOwn)

end

end Related

end Finmap
