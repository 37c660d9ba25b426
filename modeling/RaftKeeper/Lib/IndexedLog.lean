import Mathlib.Data.List.Basic

/-!
# Logs with indexes

A log holds entries at consecutive indexes from `first` on. It can grow at the end, lose the
entries above an index, have an index overwritten together with everything above it, and lose
the entries below an index. Each operation is described by what it leaves at every index.
-/

universe u

open List

/-- A log whose entries have consecutive indexes. -/
structure IndexedLog (α : Type u) where
  first : ℕ
  entries : List α
deriving DecidableEq

namespace IndexedLog

variable {α : Type u}

def next (log : IndexedLog α) : ℕ := log.first + log.entries.length

def get (log : IndexedLog α) (index : ℕ) : Option α :=
  if index < log.first then none else log.entries[index - log.first]?

def append (log : IndexedLog α) (entry : α) : IndexedLog α :=
  { log with entries := log.entries ++ [entry] }

def keepTo (log : IndexedLog α) (last : ℕ) : IndexedLog α :=
  { log with entries := log.entries.take (last + 1 - log.first) }

def writeAt (log : IndexedLog α) (index : ℕ) (entry : α) : IndexedLog α :=
  (log.keepTo (index - 1)).append entry

def keepFrom (log : IndexedLog α) (first : ℕ) : IndexedLog α :=
  { first, entries := log.entries.drop (first - log.first) }

@[simp]
theorem next_append (log : IndexedLog α) (entry : α) : (log.append entry).next = log.next + 1 := by
  simp [next, append, Nat.add_assoc]

variable {log : IndexedLog α} {last : ℕ}

theorem next_keepTo (lower : log.first ≤ last + 1) (upper : last < log.next) :
    (log.keepTo last).next = last + 1 := by
  simp only [next, keepTo, length_take] at upper ⊢
  omega

theorem keepTo_of_next_le (upper : log.next ≤ last + 1) : log.keepTo last = log := by
  rw [next] at upper
  rw [keepTo, take_of_length_le (by omega)]

theorem keepTo_part {first last : ℕ} {front part back : List α}
    (lower : first + front.length ≤ last + 1)
    (upper : last + 1 ≤ first + front.length + part.length) :
    (IndexedLog.mk first (front ++ (part ++ back))).keepTo last =
      ⟨first, front ++ part.take (last + 1 - (first + front.length))⟩ := by
  rw [keepTo, take_append, take_of_length_le (by simp; omega), Nat.sub_sub,
    take_append_of_le_length (by simp; omega)]

variable {index : ℕ}

theorem get_isSome_iff : (log.get index).isSome ↔ log.first ≤ index ∧ index < log.next := by
  rw [get, next]
  by_cases below : index < log.first
  · simp only [below, if_true, Option.isSome_none, Bool.false_eq_true, false_iff]
    omega
  · simp only [below, if_false, isSome_getElem?, Nat.not_lt.mp below, true_and]
    omega

theorem get_part {first index : ℕ} {front part back : List α}
    (lower : first + front.length ≤ index) (upper : index < first + front.length + part.length) :
    (IndexedLog.mk first (front ++ (part ++ back))).get index =
      (IndexedLog.mk (first + front.length) part).get index := by
  simp only [get]
  rw [if_neg (by omega), if_neg (by omega), getElem?_append_right (by omega),
    getElem?_append_left (by omega), Nat.sub_sub]

theorem get_append (log : IndexedLog α) (entry : α) (index : ℕ) :
    (log.append entry).get index = if index = log.next then some entry else log.get index := by
  simp only [get, next, append, getElem?_append]
  by_cases below : index < log.first
  · simp [below]
    omega
  · by_cases inside : index - log.first < log.entries.length
    · simp [below, inside]
      omega
    · by_cases atEnd : index = log.first + log.entries.length
      · simp [atEnd]
      · simp only [below, inside, atEnd, if_false]
        rw [getElem?_eq_none (by simp; omega), getElem?_eq_none (by omega)]

theorem get_keepFrom (log : IndexedLog α) {first : ℕ} (grows : log.first ≤ first) :
    (log.keepFrom first).get index = if first ≤ index then log.get index else none := by
  simp only [get, keepFrom, getElem?_drop]
  grind

theorem get_last (nonempty : log.entries ≠ []) : log.get (log.next - 1) = log.entries.getLast? := by
  have positive := length_pos_iff.mpr nonempty
  rw [get, next, if_neg (by omega), getLast?_eq_getElem?]
  congr 1
  omega

end IndexedLog
